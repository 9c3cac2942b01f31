import JustRT.Diagnosis

/-!
# What the list checks answer

`sync_invariant_check` and `timer_invariant_check` on a list with
arbitrary links. Both come to their end: they name a cycle exactly on a
list that never reaches null, and on any other the first record that
breaks its rule, if there is one.
-/

namespace JustRT

open Chain

section

variable (next : Ptr → Ptr) (head : Ptr)

/-- The walk from `head` is still on the list behind `n` links. -/
def Reached (n : Nat) : Prop := ∀ i ≤ n, next^[i] head ≠ 0

/-- `code` and `object` are the right answer of a check that walks the
list from `head`, whose records have to keep `rule`. -/
structure ListVerdict (check : Ptr → JrtKernelInvariantCode) (rule : Ptr → Prop)
    (cycle code : JrtKernelInvariantCode) (object : Ptr) : Prop where
  cycle_iff : code = cycle ↔ ∀ n, next^[n] head ≠ 0
  fails_iff : (∃ n, next^[n] head = 0) →
    (code ≠ .none ↔ ∃ n, Reached next head n ∧ ¬rule (next^[n] head))
  first : (∃ n, next^[n] head = 0) → code ≠ .none →
    code = check object ∧ ∃ n, Reached next head n ∧ object = next^[n] head ∧ ¬rule object
      ∧ ∀ i < n, rule (next^[i] head)

end

section

variable {next : Ptr → Ptr} {head : Ptr} {l : List Ptr} {check : Ptr → JrtKernelInvariantCode}
  {rule : Ptr → Prop} {cycle : JrtKernelInvariantCode}

/-- The cycle check gives up exactly on the lists that end. -/
theorem listCycleLoop_none_iff :
    listCycleLoop next addressSpace head head = .ok none ↔ ∃ l, Linked 0 next head l := by
  refine ⟨linked_of_listCycleLoop, fun ⟨l, hl⟩ => ?_⟩
  exact listCycleLoop_eq hl hl (Nat.le_refl _) (length_lt_addressSpace hl)

/-- The first record of a list that breaks its rule, by its place. -/
theorem find?_first (h : Linked 0 next head l) (hrule : ∀ a, check a = .none ↔ rule a) {b : Ptr}
    (hfind : l.find? (fun a => decide (check a ≠ .none)) = some b) :
    ∃ n, Reached next head n ∧ b = next^[n] head ∧ ¬rule b ∧ ∀ i < n, rule (next^[i] head) := by
  obtain ⟨hbad, n, hn, hb, hbefore⟩ := List.find?_eq_some_iff_getElem.mp hfind
  refine ⟨n, h.lt_length_iff.mp hn, ?_, ?_, fun i hi => ?_⟩
  · rw [← hb, h.getElem_eq hn]
  · intro hkept
    exact of_decide_eq_true hbad ((hrule b).mpr hkept)
  · have hgood := hbefore i hi
    rw [h.getElem_eq (Nat.lt_trans hi hn)] at hgood
    exact (hrule _).mp (by simpa using hgood)

/-- Nothing is found exactly if every record passes. -/
theorem find?_none_iff (h : Linked 0 next head l) (hrule : ∀ a, check a = .none ↔ rule a) :
    l.find? (fun a => decide (check a ≠ .none)) = none
      ↔ ¬∃ n, Reached next head n ∧ ¬rule (next^[n] head) := by
  rw [List.find?_eq_none]
  constructor
  · rintro hall ⟨n, hreached, hbad⟩
    have hn : n < l.length := h.lt_length_iff.mpr hreached
    have hpass := hall _ (List.getElem_mem hn)
    rw [h.getElem_eq hn] at hpass
    exact hbad ((hrule _).mp (by simpa using hpass))
  · intro hnone a ha hbad
    obtain ⟨n, hn, rfl⟩ := List.mem_iff_getElem.mp ha
    refine hnone ⟨n, h.lt_length_iff.mp hn, fun hkept => ?_⟩
    rw [h.getElem_eq hn] at hbad
    exact of_decide_eq_true hbad ((hrule _).mpr hkept)

/-- On a list that ends the answer is that of the second walk. -/
theorem listInvariantCheck_linked (h : Linked 0 next head l) :
    listInvariantCheck next check cycle head =
      .ok ((l.find? fun b => decide (check b ≠ .none)).elim (.none, 0) fun b => (check b, b)) := by
  refine exec_bind_eq_ok.mpr ⟨none, listCycleLoop_none_iff.mpr ⟨l, h⟩, ?_⟩
  exact listCheckLoop_eq h (length_lt_addressSpace h)

theorem listVerdict_linked (h : Linked 0 next head l) (hrule : ∀ a, check a = .none ↔ rule a)
    (hnone : cycle ≠ .none) (hcycle : ∀ a, check a ≠ cycle) :
    ∃ code object, listInvariantCheck next check cycle head = .ok (code, object)
      ∧ ListVerdict next head check rule cycle code object := by
  have hends : ¬∀ n, next^[n] head ≠ 0 := fun hall => hall _ h.iterate_length
  have hcheck : listInvariantCheck next check cycle head = _ := listInvariantCheck_linked h
  cases hfind : l.find? (fun a => decide (check a ≠ .none)) with
  | none =>
      rw [hfind] at hcheck
      have hall := (find?_none_iff h hrule).mp hfind
      exact ⟨.none, 0, hcheck, ⟨fun heq => absurd heq.symm hnone, fun hno => absurd hno hends⟩,
        fun _ => ⟨fun hne => absurd rfl hne, fun hbad => absurd hbad hall⟩,
        fun _ hne => absurd rfl hne⟩
  | some b =>
      rw [hfind] at hcheck
      obtain ⟨n, hreached, hb, hbad, hbefore⟩ := find?_first h hrule hfind
      have hcode : check b ≠ .none := fun heq => hbad ((hrule b).mp heq)
      refine ⟨check b, b, hcheck, ⟨fun heq => absurd heq (hcycle b), fun hno => absurd hno hends⟩,
        fun _ => ⟨fun _ => ⟨n, hreached, hb ▸ hbad⟩, fun _ => hcode⟩, fun _ _ => ⟨rfl, ?_⟩⟩
      exact ⟨n, hreached, hb, hbad, hbefore⟩

theorem listVerdict (head : Ptr) (hrule : ∀ a, check a = .none ↔ rule a) (hnone : cycle ≠ .none)
    (hcycle : ∀ a, check a ≠ cycle) :
    ∃ code object, listInvariantCheck next check cycle head = .ok (code, object)
      ∧ ListVerdict next head check rule cycle code object := by
  by_cases hlinked : ∃ l, Linked 0 next head l
  · obtain ⟨l, hl⟩ := hlinked
    exact listVerdict_linked hl hrule hnone hcycle
  · obtain ⟨code, object, hcheck, hcode⟩ := listInvariantCheck_ends next check cycle head
    have hendless : ¬∃ n, next^[n] head = 0 := fun hn => hlinked (exists_linked_iff.mpr hn)
    refine ⟨code, object, hcheck, ⟨fun _ n hn => hendless ⟨n, hn⟩, fun _ => hcode hlinked⟩,
      fun hn => absurd hn hendless, fun hn => absurd hn hendless⟩

theorem mutexCheck_ne_cycle (n : Nat) (m : JrtMutex) : mutexCheck n m ≠ .mutexListCycle := by
  unfold mutexCheck
  split
  · split <;> simp
  · split
    · simp
    · split <;> simp

theorem timerCheck_ne_cycle (t : JrtTimer) : timerCheck t ≠ .timerListCycle := by
  unfold timerCheck
  split <;> simp

end

/-- **Cycle detection.** Whatever the links of the mutexes and the timers,
both checks return. They answer with the cycle code exactly if the chain
from the head of the list never reaches null; otherwise they answer with a
code other than none exactly if a record on the chain breaks its rule, and
they name the first such record. -/
theorem listChecks_sound_complete (k : Kernel) :
    (∃ code object, syncInvariantCheck k = .ok (code, object) ∧
      ListVerdict (fun a => (k.mutexes a).next) k.mutexList
        (fun a => mutexCheck k.taskCount (k.mutexes a))
        (fun a => (k.mutexes a).Sound k.taskCount) .mutexListCycle code object) ∧
    ∃ code object, timerInvariantCheck k = .ok (code, object) ∧
      ListVerdict (fun a => (k.timers a).next) k.timerList (fun a => timerCheck (k.timers a))
        (fun a => (k.timers a).Consistent) .timerListCycle code object := by
  constructor
  · rw [syncInvariantCheck_eq]
    exact listVerdict k.mutexList (fun a => mutexCheck_eq_none_iff k.taskCount (k.mutexes a))
      (by simp) fun a => mutexCheck_ne_cycle k.taskCount (k.mutexes a)
  · rw [timerInvariantCheck_eq]
    exact listVerdict k.timerList (fun a => timerCheck_eq_none_iff (k.timers a))
      (by simp) fun a => timerCheck_ne_cycle (k.timers a)

end JustRT
