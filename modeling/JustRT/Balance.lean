import JustRT.Lib.Chain
import JustRT.Lib.Inheritance
import JustRT.Timeout

/-!
# The balance of the priorities

The tasks blocked on mutexes and the tasks that own them form a graph. The
kernel means every task to have the greatest base priority of those that
wait for it, directly or through others: `Kernel.Balanced`. Here is what the
two chain walks make of the priorities in that graph, whatever its shape,
and the one equation the restore routines leave behind: `Kernel.Settled`.
-/

namespace JustRT

open Relation Inheritance

/-! ## Who waits for whom -/

/-- Task `u` is blocked on a mutex that task `o` owns. -/
def Kernel.WaitsFor (k : Kernel) (u o : Nat) : Prop :=
  u < k.taskCount ∧ o < k.taskCount ∧ waitsForOwner k o u = true

instance (k : Kernel) (u o : Nat) : Decidable (k.WaitsFor u o) :=
  inferInstanceAs (Decidable (_ ∧ _ ∧ _))

/-- Every task has the greatest base priority among itself and the tasks that
are transitively blocked on mutexes it owns. This is what priority inheritance
is for; no function of the kernel computes it as such. -/
def Kernel.Balanced (k : Kernel) : Prop :=
  ∀ i < k.taskCount, BalancedAt k.WaitsFor k.basePrio k.prio i

/-- Every task has the greatest of its base priority and the priorities of the
tasks that are blocked on mutexes it owns. One round of the kernel's
recomputation establishes this for one task; where waits form no cycle it is
the same as `Balanced`. -/
def Kernel.Settled (k : Kernel) : Prop :=
  ∀ i < k.taskCount, LocalAt k.WaitsFor k.basePrio k.prio i

def Kernel.table (k : Kernel) : Set Nat := {i | i < k.taskCount}

/-- The node a chain walk goes on to, which is the last one for ever where
the chain ends. -/
def Kernel.chainStep (k : Kernel) (id : Nat) : Nat := (chainNext k id).getD id

section Graph

variable {k k' : Kernel} {u o o' x : Nat}

theorem waitsForOwner_iff : waitsForOwner k o u = true
    ↔ blockedOnMutex k u = true ∧ (blockingMutex k u).locked ≠ 0
      ∧ (blockingMutex k u).owner = o := by
  simp [waitsForOwner, and_assoc]

theorem Kernel.WaitsFor.unique (h : k.WaitsFor u o) (h' : k.WaitsFor u o') : o = o' := by
  obtain ⟨-, -, howner⟩ := waitsForOwner_iff.mp h.2.2
  obtain ⟨-, -, howner'⟩ := waitsForOwner_iff.mp h'.2.2
  exact howner.symm.trans howner'

theorem blockedOnMutex_congr (hview : k'.view = k.view) :
    blockedOnMutex k' = blockedOnMutex k := by
  funext u
  simp only [blockedOnMutex, ← view_state, ← view_waitKind, ← view_waitObject, hview]

theorem blockingMutex_congr (hview : k'.view = k.view) (hmutexes : k'.mutexes = k.mutexes) :
    blockingMutex k' = blockingMutex k := by
  funext u
  rw [blockingMutex, blockingMutex, ← view_waitObject, ← view_waitObject, hview, hmutexes]

theorem waitsForOwner_congr (hview : k'.view = k.view) (hmutexes : k'.mutexes = k.mutexes) :
    waitsForOwner k' = waitsForOwner k := by
  funext o u
  rw [waitsForOwner, waitsForOwner, blockedOnMutex_congr hview, blockingMutex_congr hview hmutexes]

theorem waitsFor_congr (hview : k'.view = k.view) (hmutexes : k'.mutexes = k.mutexes)
    (hcount : k'.taskCount = k.taskCount) : k'.WaitsFor = k.WaitsFor := by
  funext u o
  rw [Kernel.WaitsFor, Kernel.WaitsFor, hcount, waitsForOwner_congr hview hmutexes]

theorem chainNext_congr (hview : k'.view = k.view) (hmutexes : k'.mutexes = k.mutexes)
    (hcount : k'.taskCount = k.taskCount) : chainNext k' = chainNext k := by
  funext u
  rw [chainNext, chainNext, blockedOnMutex_congr hview, blockingMutex_congr hview hmutexes, hcount]

/-- A walk goes on to the task the last one waits for. -/
theorem chainNext_eq_some_iff (hu : u < k.taskCount) :
    chainNext k u = some o ↔ k.WaitsFor u o ∧ o ≠ u := by
  simp only [chainNext]
  constructor
  · intro h
    split at h
    · next hblocked =>
        split at h
        · cases h
        · next hgoes =>
            obtain ⟨hlocked, hrest⟩ := not_or.mp hgoes
            obtain ⟨hlt, hne⟩ := not_or.mp hrest
            obtain rfl := Option.some.inj h
            exact ⟨⟨hu, Nat.lt_of_not_ge hlt, waitsForOwner_iff.mpr ⟨hblocked, hlocked, rfl⟩⟩, hne⟩
    · cases h
  · rintro ⟨⟨-, ho, hwaits⟩, hne⟩
    obtain ⟨hblocked, hlocked, rfl⟩ := waitsForOwner_iff.mp hwaits
    rw [if_pos hblocked, if_neg]
    exact not_or.mpr ⟨hlocked, not_or.mpr ⟨Nat.not_le_of_gt ho, hne⟩⟩

theorem chainStep_lt (hu : u < k.taskCount) : k.chainStep u < k.taskCount := by
  unfold Kernel.chainStep
  cases h : chainNext k u with
  | none => exact hu
  | some o => exact ((chainNext_eq_some_iff hu).mp h).1.2.1

/-- The walk from `o` comes to all that `o` waits for, within as many links as
there are tasks. -/
theorem exists_chainStep_iff (ho : o < k.taskCount) :
    (∃ e < k.taskCount, k.chainStep^[e] o = x) ↔ ReflTransGen k.WaitsFor o x := by
  have hlt : ∀ e, k.chainStep^[e] o < k.taskCount := by
    intro e
    induction e with
    | zero => exact ho
    | succ e ih =>
        rw [Function.iterate_succ_apply']
        exact chainStep_lt ih
  constructor
  · rintro ⟨e, -, rfl⟩
    induction e with
    | zero => exact .refl
    | succ e ih =>
        rw [Function.iterate_succ_apply', Kernel.chainStep]
        cases h : chainNext k (k.chainStep^[e] o) with
        | none => exact ih
        | some b => exact ih.tail ((chainNext_eq_some_iff (hlt e)).mp h).1
  · intro hreach
    obtain ⟨d, rfl⟩ : ∃ d, k.chainStep^[d] o = x := by
      induction hreach with
      | refl => exact ⟨0, rfl⟩
      | @tail a b _ hstep ih =>
          obtain ⟨d, rfl⟩ := ih
          by_cases hne : b = k.chainStep^[d] o
          · exact ⟨d, hne.symm⟩
          · refine ⟨d + 1, ?_⟩
            rw [Function.iterate_succ_apply', Kernel.chainStep,
              (chainNext_eq_some_iff (hlt d)).mpr ⟨hstep, hne⟩]
            rfl
    have hclosed : ∀ b ∈ Finset.range k.taskCount, k.chainStep b ∈ Finset.range k.taskCount :=
      fun b hb => Finset.mem_range.mpr (chainStep_lt (Finset.mem_range.mp hb))
    obtain ⟨e, he, heq⟩ := Chain.exists_iterate_lt hclosed (Finset.mem_range.mpr ho) d
    rw [Finset.card_range] at he
    exact ⟨e, he, heq⟩

end Graph

/-! ## Inheriting along a chain -/

section Inherit

variable {k : Kernel} {o x p depth : Nat}

/-- The task at hand is raised to the inherited priority. -/
theorem raised_prio (k : Kernel) (o p : Nat) :
    (if (k.tasks o).priority < p then setPriority k o p else k).prio
      = Function.update k.prio o (max (k.prio o) p) := by
  split
  · next hlt =>
      have hle : k.prio o ≤ p := Nat.le_of_lt hlt
      rw [setPriority_prio, Nat.max_eq_right hle]
  · next hge =>
      have hle : p ≤ k.prio o := Nat.le_of_not_lt hge
      rw [Nat.max_eq_left hle, Function.update_eq_self]

theorem inheritLoop_prio (ho : o < k.taskCount) :
    ((∃ e < depth, k.chainStep^[e] o = x) → (inheritLoop p depth o k).prio x = max (k.prio x) p)
      ∧ ((∀ e < depth, k.chainStep^[e] o ≠ x) → (inheritLoop p depth o k).prio x = k.prio x) := by
  induction depth generalizing o k with
  | zero => exact ⟨fun ⟨e, he, _⟩ => absurd he (Nat.not_lt_zero e), fun _ => rfl⟩
  | succ depth ih =>
      have hraised := raised_prio k o p
      have hview : (if (k.tasks o).priority < p then setPriority k o p else k).view = k.view := by
        split <;> simp
      have hmutexes : (if (k.tasks o).priority < p then setPriority k o p else k).mutexes
          = k.mutexes := by
        split <;> simp
      have hcount : (if (k.tasks o).priority < p then setPriority k o p else k).taskCount
          = k.taskCount := by
        split <;> simp
      simp only [inheritLoop, if_neg (Nat.not_le_of_gt ho)]
      generalize (if (k.tasks o).priority < p then setPriority k o p else k) = k₁ at *
      have hnext := chainNext_congr hview hmutexes hcount
      have hstep : k₁.chainStep = k.chainStep := by
        funext a
        rw [Kernel.chainStep, Kernel.chainStep, hnext]
      have hself : k₁.prio o = max (k.prio o) p := by rw [hraised, Function.update_self]
      have hother : x ≠ o → k₁.prio x = k.prio x := fun hne => by
        rw [hraised, Function.update_of_ne hne]
      cases hgoes : chainNext k₁ o with
      | none =>
          have hfixed : ∀ e, k.chainStep^[e] o = o := by
            refine Function.iterate_fixed ?_
            rw [← hstep, Kernel.chainStep, hgoes]
            rfl
          refine ⟨?_, fun hnever => hother (hnever 0 (Nat.succ_pos depth)).symm⟩
          rintro ⟨e, -, rfl⟩
          rw [hfixed]
          exact hself
      | some b =>
          have hb : k.chainStep o = b := by
            rw [← hstep, Kernel.chainStep, hgoes]
            rfl
          have hlt : b < k₁.taskCount := by
            rw [← hb, hcount]
            exact chainStep_lt ho
          obtain ⟨hreached, hmissed⟩ := ih hlt
          rw [hstep] at hreached hmissed
          constructor
          · rintro ⟨e, he, heq⟩
            by_cases hlater : ∃ e < depth, k.chainStep^[e] b = x
            · rw [hreached hlater]
              by_cases hxo : x = o
              · rw [hxo, hself, Nat.max_assoc, Nat.max_self]
              · rw [hother hxo]
            · have hnone : ∀ e < depth, k.chainStep^[e] b ≠ x := fun e he heq =>
                hlater ⟨e, he, heq⟩
              have hzero : x = o := by
                cases e with
                | zero => exact heq.symm
                | succ e =>
                    rw [Function.iterate_succ_apply, hb] at heq
                    exact absurd heq (hnone e (Nat.lt_of_succ_lt_succ he))
              rw [hmissed hnone, hzero, hself]
          · intro hnever
            have hnone : ∀ e < depth, k.chainStep^[e] b ≠ x := by
              intro e he
              rw [← hb, ← Function.iterate_succ_apply]
              exact hnever (e + 1) (Nat.succ_lt_succ he)
            rw [hmissed hnone, hother (hnever 0 (Nat.succ_pos depth)).symm]

@[simp] theorem inheritLoop_basePrio (p depth id : Nat) (k : Kernel) :
    (inheritLoop p depth id k).basePrio = k.basePrio :=
  (inheritLoop_reprioritized p depth id k).kept Kernel.basePrio setPriority_basePrio

theorem inheritLoop_of_ge (ho : ¬o < k.taskCount) : inheritLoop p depth o k = k := by
  cases depth with
  | zero => rfl
  | succ depth => exact if_pos (Nat.le_of_not_lt ho)

/-- `task_inherit_priority` raises all that the first task waits for, and no
other. -/
theorem taskInheritPriority_prio (hx : x < k.taskCount) :
    (ReflTransGen k.WaitsFor o x → (taskInheritPriority k o p).prio x = max (k.prio x) p)
      ∧ (¬ReflTransGen k.WaitsFor o x → (taskInheritPriority k o p).prio x = k.prio x) := by
  by_cases ho : o < k.taskCount
  · obtain ⟨hreached, hmissed⟩ := @inheritLoop_prio k o x p k.taskCount ho
    refine ⟨fun hreach => hreached ((exists_chainStep_iff ho).mpr hreach), fun hnot => ?_⟩
    exact hmissed fun e he heq => hnot ((exists_chainStep_iff ho).mp ⟨e, he, heq⟩)
  · refine ⟨fun hreach => ?_, fun _ => ?_⟩
    · rcases hreach.cases_head with rfl | ⟨b, hstep, -⟩
      · exact absurd hx ho
      · exact absurd hstep.1 ho
    · rw [taskInheritPriority, inheritLoop_of_ge ho]

end Inherit

/-! ## Restoring along a chain -/

section Restore

variable {k : Kernel} {i b depth : Nat}

theorem Kernel.table_finite (k : Kernel) : k.table.Finite := Set.finite_lt_nat k.taskCount

theorem Kernel.table_ncard (k : Kernel) : k.table.ncard = k.taskCount := by
  have hrange : k.table = Finset.range k.taskCount := by
    ext i
    simp [Kernel.table]
  rw [hrange, Set.ncard_coe_finset, Finset.card_range]

/-- The waits are among the tasks of the table, ... -/
theorem Kernel.waitsFor_closed (k : Kernel) (u o : Nat) (h : k.WaitsFor u o) (_ : o ∈ k.table) :
    u ∈ k.table := h.1

/-- ... in both directions. -/
theorem Kernel.waitsFor_closed_swap (k : Kernel) (o u : Nat) (h : Function.swap k.WaitsFor o u)
    (_ : u ∈ k.table) : o ∈ k.table := h.2.1

/-- The scan of both restore routines finds the greatest of what is offered. -/
theorem effectivePriority_isGreatest (hi : i < k.taskCount) :
    IsGreatest (offers k.WaitsFor k.basePrio k.prio i) (effectivePriority k i) := by
  have hscan := Scan.raise_isGreatest (fun scan => waitsForOwner k i scan = true) k.prio
    (List.range k.taskCount) (k.basePrio i)
  have hset : offers k.WaitsFor k.basePrio k.prio i = {x | x = k.basePrio i
      ∨ ∃ a ∈ List.range k.taskCount, waitsForOwner k i a = true ∧ x = k.prio a} := by
    ext p
    constructor
    · rintro (hbase | ⟨j, ⟨hj, -, hwaits⟩, rfl⟩)
      · exact Or.inl hbase
      · exact Or.inr ⟨j, List.mem_range.mpr hj, hwaits, rfl⟩
    · rintro (hbase | ⟨j, hj, hwaits, rfl⟩)
      · exact Or.inl hbase
      · exact Or.inr ⟨j, ⟨List.mem_range.mp hj, hi, hwaits⟩, rfl⟩
  rw [hset]
  exact hscan

theorem setPriority_waitsFor (k : Kernel) (task priority : Nat) :
    (setPriority k task priority).WaitsFor = k.WaitsFor :=
  waitsFor_congr (by simp) (by simp) (by simp)

@[simp] theorem restoreLoop_basePrio (depth id : Nat) (k : Kernel) :
    (restoreLoop depth id k).basePrio = k.basePrio :=
  (restoreLoop_reprioritized depth id k).kept Kernel.basePrio setPriority_basePrio

theorem restoreLoop_waitsFor (depth id : Nat) (k : Kernel) :
    (restoreLoop depth id k).WaitsFor = k.WaitsFor :=
  (restoreLoop_reprioritized depth id k).kept Kernel.WaitsFor setPriority_waitsFor

/-- Lowering the one task that shows too much: either it does not, or the walk
goes on to the one task that may show too much now. A task on a cycle of waits
never does. -/
theorem restoreLoop_settles (hi : i < k.taskCount)
    (hothers : ∀ x < k.taskCount, x ≠ i → LocalAt k.WaitsFor k.basePrio k.prio x)
    (hcovers : CoversAt k.WaitsFor k.basePrio k.prio i)
    (hdepth : {x | ReflTransGen (Function.swap k.WaitsFor) x i}.ncard ≤ depth) :
    (restoreLoop depth i k).Settled
      ∧ ∀ y, TransGen k.WaitsFor y y → (restoreLoop depth i k).prio y = k.prio y := by
  induction depth generalizing i k with
  | zero =>
      have hfinite : {x | ReflTransGen (Function.swap k.WaitsFor) x i}.Finite :=
        k.table_finite.subset fun _ hx => mem_of_reaches k.waitsFor_closed_swap hx hi
      have hpos := (Set.ncard_pos hfinite).mpr ⟨i, .refl⟩
      omega
  | succ depth ih =>
      have hgreatest := effectivePriority_isGreatest hi
      have hframe := setPriority_waitsFor k i (effectivePriority k i)
      have hprio := setPriority_prio k i (effectivePriority k i)
      have hbase := setPriority_basePrio k i (effectivePriority k i)
      have hcount : (setPriority k i (effectivePriority k i)).taskCount = k.taskCount := by simp
      have hnext := chainNext_congr (setPriority_view k i (effectivePriority k i)) (by simp) hcount
      simp only [restoreLoop, if_neg (Nat.not_le_of_gt hi)]
      by_cases hsame : effectivePriority k i = (k.tasks i).priority
      · have hupdate : Function.update k.prio i (effectivePriority k i) = k.prio := by
          rw [hsame]
          exact Function.update_eq_self i k.prio
        rw [if_pos hsame]
        refine ⟨fun x hx => ?_, fun y _ => by rw [hprio, hupdate]⟩
        rw [hframe, hbase, hprio, hupdate]
        by_cases hxi : x = i
        · subst hxi
          have hlocal := hgreatest
          rw [hsame] at hlocal
          exact hlocal
        · exact hothers x (hcount ▸ hx) hxi
      · have hlt : effectivePriority k i < k.prio i :=
          lt_of_le_of_ne (hcovers hgreatest.1) hsame
        have hcycle : ¬TransGen k.WaitsFor i i := by
          refine not_cycle_of_lt (fun x hx => ?_) hgreatest.2 hlt
          by_cases hxi : x = i
          · exact hxi ▸ hcovers
          · have hxn : x ∈ k.table := mem_of_reaches k.waitsFor_closed hx hi
            exact (hothers x hxn hxi).covers
        have hself : ¬k.WaitsFor i i := fun h => hcycle (.single h)
        have hset : LocalAt k.WaitsFor k.basePrio
            (Function.update k.prio i (effectivePriority k i)) i :=
          localAt_update_self hgreatest hself
        rw [if_neg hsame, hnext]
        cases hgoes : chainNext k i with
        | none =>
            have hends : ∀ x, ¬k.WaitsFor i x := by
              intro x hx
              have hxi : x ≠ i := fun heq => hself (heq ▸ hx)
              rw [(chainNext_eq_some_iff hi).mpr ⟨hx, hxi⟩] at hgoes
              cases hgoes
            refine ⟨fun x hx => ?_, fun y hy => ?_⟩
            · rw [hframe, hbase, hprio]
              by_cases hxi : x = i
              · exact hxi ▸ hset
              · exact (hothers x (hcount ▸ hx) hxi).update hxi (hends x)
            · change (setPriority k i (effectivePriority k i)).prio y = _
              rw [hprio, Function.update_of_ne fun heq : y = i => hcycle (heq ▸ hy)]
        | some b =>
            obtain ⟨hwaits, hbi⟩ := (chainNext_eq_some_iff hi).mp hgoes
            have hb : b < k.taskCount := hwaits.2.1
            have hshrinks : {x | ReflTransGen (Function.swap k.WaitsFor) x b}.ncard
                < {x | ReflTransGen (Function.swap k.WaitsFor) x i}.ncard :=
              ncard_reaching_lt k.table_finite k.waitsFor_closed_swap hi
                (fun h => hcycle (transGen_swap.mp h)) hwaits
            obtain ⟨hsettled, hkept⟩ := ih (k := setPriority k i (effectivePriority k i)) (i := b)
              (hcount ▸ hb)
              (fun x hx hxb => by
                rw [hframe, hbase, hprio]
                by_cases hxi : x = i
                · exact hxi ▸ hset
                · exact (hothers x (hcount ▸ hx) hxi).update hxi
                    fun h => hxb (h.unique hwaits))
              (by
                rw [hframe, hbase, hprio]
                exact (hothers b hb hbi).covers.update hbi (Nat.le_of_lt hlt))
              (by
                rw [hframe]
                omega)
            refine ⟨hsettled, fun y hy => (hkept y (hframe ▸ hy)).trans ?_⟩
            rw [hprio, Function.update_of_ne fun heq : y = i => hcycle (heq ▸ hy)]

/-- `restore_priority_chain`, where the first task alone may show too much. -/
theorem restorePriorityChain_settles (hi : i < k.taskCount)
    (hothers : ∀ x < k.taskCount, x ≠ i → LocalAt k.WaitsFor k.basePrio k.prio x)
    (hcovers : CoversAt k.WaitsFor k.basePrio k.prio i) :
    (restorePriorityChain k i).Settled
      ∧ ∀ y, TransGen k.WaitsFor y y → (restorePriorityChain k i).prio y = k.prio y := by
  refine restoreLoop_settles hi hothers hcovers ?_
  have hsub : {x | ReflTransGen (Function.swap k.WaitsFor) x i} ⊆ k.table :=
    fun _ hx => mem_of_reaches k.waitsFor_closed_swap hx hi
  exact (Set.ncard_le_ncard hsub k.table_finite).trans k.table_ncard.le

end Restore

/-! ## The tick -/

/-- Between `k` and `k'` waits only end, and the priorities follow: they are
settled again, and a cycle of waits that is left keeps its own. -/
structure Relaxed (k k' : Kernel) : Prop where
  count : k'.taskCount = k.taskCount
  base : k'.basePrio = k.basePrio
  waits : ∀ u o, k'.WaitsFor u o → k.WaitsFor u o
  settled : k.Settled → k'.Settled
  cycles : k.Settled → ∀ y, TransGen k'.WaitsFor y y → k'.prio y = k.prio y

namespace Relaxed

variable {k k' k₁ k₂ k₃ : Kernel}

theorem of_same (hcount : k'.taskCount = k.taskCount) (hwaits : k'.WaitsFor = k.WaitsFor)
    (hprio : PrioFrame k k') : Relaxed k k' := by
  refine ⟨hcount, hprio.2, fun u o h => hwaits ▸ h, fun h i hi => ?_, fun _ y _ => ?_⟩
  · rw [hwaits, hprio.1, hprio.2]
    exact h i (hcount ▸ hi)
  · rw [hprio.1]

theorem refl (k : Kernel) : Relaxed k k := of_same rfl rfl (.refl k)

theorem trans (h₁ : Relaxed k₁ k₂) (h₂ : Relaxed k₂ k₃) : Relaxed k₁ k₃ where
  count := h₂.count.trans h₁.count
  base := h₂.base.trans h₁.base
  waits u o h := h₁.waits u o (h₂.waits u o h)
  settled h := h₂.settled (h₁.settled h)
  cycles h y hy :=
    (h₂.cycles (h₁.settled h) y hy).trans (h₁.cycles h y (TransGen.mono h₂.waits _ _ hy))

end Relaxed

section Tick

variable {k k' : Kernel} {index u o : Nat}

theorem not_waitsFor_of_state (h : (k.view u).state ≠ .blocked) : ¬k.WaitsFor u o := by
  intro hwaits
  obtain ⟨hblocked, -, -⟩ := waitsForOwner_iff.mp hwaits.2.2
  simp only [blockedOnMutex, Bool.and_eq_true, beq_iff_eq] at hblocked
  exact h hblocked.1.1

theorem not_waitsFor_of_kind (h : (k.view u).waitKind ≠ .mutex) : ¬k.WaitsFor u o := by
  intro hwaits
  obtain ⟨hblocked, -, -⟩ := waitsForOwner_iff.mp hwaits.2.2
  simp only [blockedOnMutex, Bool.and_eq_true, beq_iff_eq] at hblocked
  exact h hblocked.1.2

/-- What a task waits for is in its own record and the mutexes. -/
theorem waitsFor_iff_of_view (hview : k'.view u = k.view u) (hmutexes : k'.mutexes = k.mutexes)
    (hcount : k'.taskCount = k.taskCount) : k'.WaitsFor u o ↔ k.WaitsFor u o := by
  rw [Kernel.WaitsFor, Kernel.WaitsFor, waitsForOwner_iff, waitsForOwner_iff, hcount]
  simp only [blockedOnMutex, blockingMutex, ← view_state, ← view_waitKind, ← view_waitObject,
    hview, hmutexes]

/-- Waits for mutexes go on where no other record changes. -/
theorem waitsFor_of_views (hmutexes : k'.mutexes = k.mutexes) (hcount : k'.taskCount = k.taskCount)
    (h : ∀ u, k'.view u = k.view u
      ∨ ((∀ o, ¬k'.WaitsFor u o) ∧ ∀ o, ¬k.WaitsFor u o)) : k'.WaitsFor = k.WaitsFor := by
  funext u o
  rcases h u with hview | ⟨hnot', hnot⟩
  · exact propext (waitsFor_iff_of_view hview hmutexes hcount)
  · exact propext (iff_of_false (hnot' o) (hnot o))

/-- No wake-up for another reason ends a wait for a mutex. -/
theorem waitsFor_of_wakes {R : WaitView → UInt32 → Prop} (hw : WakesOnly R k k')
    (hR : ∀ v r, R v r → v.waitKind ≠ .mutex) (hmutexes : k'.mutexes = k.mutexes)
    (hcount : k'.taskCount = k.taskCount) : k'.WaitsFor = k.WaitsFor := by
  refine waitsFor_of_views hmutexes hcount fun u => ?_
  have hstate : ∀ {v : WaitView}, k'.view u = v → v.state ≠ .blocked → ∀ o, ¬k'.WaitsFor u o :=
    fun hv hne _ => not_waitsFor_of_state (hv ▸ hne)
  have hu := hw u
  generalize hv : k'.view u = v at hu
  cases hu with
  | kept => exact Or.inl rfl
  | ended _ hr =>
      exact Or.inr ⟨hstate hv (by simp), fun o => not_waitsFor_of_kind (hR _ _ hr)⟩
  | awoken hs =>
      refine Or.inr ⟨hstate hv (by simp), fun o => not_waitsFor_of_state ?_⟩
      rw [hs]
      decide

/-- The owner whose chain is restored is the task the late waiter waits for. -/
theorem timeoutMutexOwner_cases (k : Kernel) (index : Nat) :
    (timeoutMutexOwner k index = none ∧ ∀ o, ¬k.WaitsFor index o)
      ∨ ∃ owner < k.taskCount, timeoutMutexOwner k index = some owner
        ∧ ∀ o, k.WaitsFor index o → o = owner := by
  simp only [timeoutMutexOwner]
  by_cases hkind : (k.tasks index).waitKind = .mutex ∧ (k.tasks index).waitObject ≠ .null
  · rw [if_pos hkind]
    by_cases howned : (k.mutexes (k.tasks index).waitObject.mutexPtr).locked ≠ 0
        ∧ (k.mutexes (k.tasks index).waitObject.mutexPtr).owner < k.taskCount
    · rw [if_pos howned]
      refine Or.inr ⟨_, howned.2, rfl, fun o h => ?_⟩
      exact (waitsForOwner_iff.mp h.2.2).2.2.symm
    · rw [if_neg howned]
      refine Or.inl ⟨rfl, fun o h => howned ?_⟩
      obtain ⟨-, hlocked, rfl⟩ := waitsForOwner_iff.mp h.2.2
      exact ⟨hlocked, h.2.1⟩
  · rw [if_neg hkind]
    refine Or.inl ⟨rfl, fun o h => hkind ?_⟩
    obtain ⟨hblocked, -, -⟩ := waitsForOwner_iff.mp h.2.2
    simp only [blockedOnMutex, Bool.and_eq_true, beq_iff_eq, bne_iff_ne] at hblocked
    exact ⟨hblocked.1.2, hblocked.2⟩

/-- The kernel behind a timeout, before the priorities follow. -/
def timedOut (k : Kernel) (index : Nat) : Kernel :=
  countTimeout (taskWaitEnd k index 0 false) (k.tasks index).waitKind

theorem tickTask_expired (h : waitExpired k index = true) : tickTask k index
    = (timeoutMutexOwner k index).elim (timedOut k index)
        fun owner => restorePriorityChain (timedOut k index) owner := by
  have hnot : ¬((k.tasks index).state = .sleeping ∧ (k.tasks index).sleepTicks > 0) := by
    rintro ⟨hs, -⟩
    have hb := (waitExpired_iff.mp h).1
    rw [view_state, hs] at hb
    cases hb
  simp only [tickTask, if_neg hnot, if_pos h]
  cases timeoutMutexOwner k index <;> rfl

theorem timedOut_prioFrame (k : Kernel) (index : Nat) : PrioFrame k (timedOut k index) :=
  (taskWaitEnd_prioFrame k index 0 false).trans (countTimeout_prioFrame _ _)

theorem timedOut_waitsFor : (timedOut k index).WaitsFor u o ↔ k.WaitsFor u o ∧ u ≠ index := by
  have hview : (timedOut k index).view
      = Function.update k.view index ((k.view index).ended 0) := by
    rw [timedOut, countTimeout_view, taskWaitEnd_view]
  by_cases hu : u = index
  · subst hu
    refine iff_of_false (not_waitsFor_of_state ?_) fun h => h.2 rfl
    rw [hview, Function.update_self]
    simp
  · have hsame : (timedOut k index).view u = k.view u := by
      rw [hview, Function.update_of_ne hu]
    exact (waitsFor_iff_of_view hsame (by simp [timedOut]) (by simp [timedOut])).trans
      (and_iff_left hu).symm

/-- One iteration of the task loop: a late waiter for a mutex leaves one owner
that may show too much, whose chain is restored. -/
theorem tickTask_relaxed (k : Kernel) (index : Nat) : Relaxed k (tickTask k index) := by
  by_cases hexpired : waitExpired k index = true
  · have hframe := timedOut_prioFrame k index
    have hcount : (timedOut k index).taskCount = k.taskCount := by simp [timedOut]
    rw [tickTask_expired hexpired]
    rcases timeoutMutexOwner_cases k index with ⟨hnone, hnot⟩ | ⟨owner, howner, hsome, honly⟩
    · rw [hnone]
      refine .of_same hcount ?_ hframe
      funext u o
      refine propext (timedOut_waitsFor.trans (and_iff_left_of_imp ?_))
      rintro h rfl
      exact hnot o h
    · rw [hsome]
      have hwaits : (restorePriorityChain (timedOut k index) owner).WaitsFor
          = (timedOut k index).WaitsFor := restoreLoop_waitsFor _ _ _
      have hrestored : k.Settled → (restorePriorityChain (timedOut k index) owner).Settled
          ∧ ∀ y, TransGen (timedOut k index).WaitsFor y y →
            (restorePriorityChain (timedOut k index) owner).prio y = k.prio y := by
        intro hsettled
        rw [← hframe.1]
        refine restorePriorityChain_settles (hcount ▸ howner) (fun x hx hne => ?_) ?_
        · rw [LocalAt, hframe.1, hframe.2, offers_congr (fun j => timedOut_waitsFor.trans
            (and_iff_left_of_imp ?_)) fun _ _ => rfl]
          · exact hsettled x (hcount ▸ hx)
          · rintro h rfl
            exact hne (honly x h)
        · rw [hframe.1, hframe.2]
          rintro p (hbase | ⟨j, hj, hp⟩)
          · exact (hsettled owner howner).2 (Or.inl hbase)
          · exact (hsettled owner howner).2 (Or.inr ⟨j, (timedOut_waitsFor.mp hj).1, hp⟩)
      refine ⟨?_, ?_, fun u o h => (timedOut_waitsFor.mp (hwaits ▸ h)).1,
        fun h => (hrestored h).1, fun h y hy => (hrestored h).2 y (hwaits ▸ hy)⟩
      · exact (restorePriorityChain_frame _ _).1.trans hcount
      · exact (restoreLoop_basePrio _ _ _).trans hframe.2
  · have hprio : PrioFrame k (tickTask k index) := by
      have hsleep : PrioFrame k (k.setTask index ((k.tasks index).withSleepTicks
          ((k.tasks index).sleepTicks - 1))) := setTask_prioFrame rfl rfl
      simp only [tickTask, if_neg hexpired]
      split
      · refine hsleep.trans ?_
        split
        · refine (taskBenchmarkReleaseLocked_prioFrame _ index false).trans ?_
          exact setTask_prioFrame rfl rfl
        · exact .refl _
      · exact .refl k
    have hwakes : WakesOnly noWake k (tickTask k index) := by
      intro j
      rw [tickTask_view, if_neg hexpired]
      by_cases hj : j = index
      · subst hj
        rw [Function.update_self]
        split
        · next h =>
            split
            · exact .awoken h.1
            · exact .kept
        · exact .kept
      · rw [Function.update_of_ne hj]
        exact .kept
    exact .of_same (tickTask_frame k index).1
      (waitsFor_of_wakes hwakes (fun _ _ h => h.elim) (by simp) (by simp)) hprio

theorem tickTasks_relaxed (h : tickTasks k = .ok k') : Relaxed k k' := by
  obtain ⟨k₁, htimer, rfl⟩ := tickTasksBody_cases (tickTasks_body h)
  have hframe := timerTickLoop_frame htimer
  simp only [TimerFrame, ControlFrame] at hframe
  have hcount : k₁.taskCount = k.taskCount := hframe.1.1
  have hwaits : k₁.WaitsFor = (advanceTicks k).WaitsFor :=
    waitsFor_of_wakes (timerTickLoop_wakes htimer) (fun v r hr => by simp [hr.2.1])
      (by simp [hframe]) hcount
  have hfirst : Relaxed k k₁ :=
    .of_same hcount hwaits ((advanceTicks_prioFrame k).trans (timerTickLoop_prioFrame htimer))
  exact hfirst.trans (Scan.foldl_rel Relaxed.refl Relaxed.trans tickTask_relaxed _ k₁)

/-- A tick ends the waits for mutexes whose deadline is over, and no other. -/
theorem tickTasks_waitsFor_iff (h : tickTasks k = .ok k') :
    k'.WaitsFor u o
      ↔ k.WaitsFor u o ∧ ¬(k.view u).deadline.Expired (k.gKernelTicks + 1) := by
  have hwaits := (tickTasks_relaxed h).waits u o
  have hframe := tickTasks_frame h
  simp only [TickFrame] at hframe
  have hview : k.WaitsFor u o → k'.view u
      = if (k.view u).deadline.Expired (k.gKernelTicks + 1) then (k.view u).ended 0
        else k.view u := by
    intro hold
    refine tickTasks_blocked h hold.1 ?_ ?_
    · by_contra hstate
      exact not_waitsFor_of_state hstate hold
    · intro hkind
      exact not_waitsFor_of_kind (by rw [hkind]; decide) hold
  constructor
  · intro hnew
    refine ⟨hwaits hnew, fun hexpired => ?_⟩
    have hended := hview (hwaits hnew)
    rw [if_pos hexpired] at hended
    exact not_waitsFor_of_state (by rw [hended]; simp) hnew
  · rintro ⟨hold, hlive⟩
    have hkept := hview hold
    rw [if_neg hlive] at hkept
    exact (waitsFor_iff_of_view hkept (by simp [hframe]) hframe.1).mpr hold

end Tick

/-! ## Balance -/

section Balance

variable {k k' : Kernel}

theorem Kernel.Balanced.settled (h : k.Balanced) : k.Settled := fun i hi =>
  (h i hi).localAt fun j hj => h j hj.1

/-- Settled priorities are balanced if every cycle of waits has one that some
base priority accounts for. -/
theorem Kernel.Settled.balanced (h : k.Settled)
    (hcycle : ∀ i < k.taskCount, TransGen k.WaitsFor i i →
      ∃ j, ReflTransGen k.WaitsFor j i ∧ k.basePrio j = k.prio i) : k.Balanced :=
  fun _ hi => balancedAt_of_local k.table_finite k.waitsFor_closed h hcycle hi

/-- Where nobody waits for a mutex, every task has its base priority. -/
theorem balanced_of_no_waits (hwaits : ∀ u o, ¬k.WaitsFor u o)
    (hprio : ∀ i < k.taskCount, k.prio i = k.basePrio i) : k.Balanced := by
  intro i hi
  constructor
  · exact ⟨i, .refl, (hprio i hi).symm⟩
  · rintro p ⟨j, hj, rfl⟩
    rcases hj.cases_tail with rfl | ⟨b, -, hstep⟩
    · exact (hprio i hi).ge
    · exact absurd hstep (hwaits b i)

theorem Kernel.Balanced.of_same (h : k.Balanced) (hcount : k'.taskCount = k.taskCount)
    (hwaits : k'.WaitsFor = k.WaitsFor) (hprio : PrioFrame k k') : k'.Balanced := by
  intro i hi
  rw [hwaits, hprio.1, hprio.2]
  exact h i (hcount ▸ hi)

/-! ### Raising a chain -/

/-- A boost that leaves no waiter keeps the balance exactly if it raises
nobody. -/
theorem raised_balanced_iff {t p : Nat} (h : k.Balanced) (hcount : k'.taskCount = k.taskCount)
    (hwaits : k'.WaitsFor = k.WaitsFor) (hbase : k'.basePrio = k.basePrio)
    (hraised : ∀ i < k.taskCount, (ReflTransGen k.WaitsFor t i → k'.prio i = max (k.prio i) p)
      ∧ (¬ReflTransGen k.WaitsFor t i → k'.prio i = k.prio i)) :
    k'.Balanced ↔ ∀ i < k.taskCount, ReflTransGen k.WaitsFor t i → p ≤ k.prio i := by
  constructor
  · intro hafter i hi hreach
    have hnew := hafter i (hcount ▸ hi)
    rw [hwaits, hbase] at hnew
    have hsame : k'.prio i = k.prio i := hnew.unique (h i hi)
    rw [(hraised i hi).1 hreach] at hsame
    exact hsame ▸ Nat.le_max_right _ _
  · intro hlow i hi
    rw [hcount] at hi
    rw [hwaits, hbase]
    refine (h i hi).congr ?_ fun _ => Iff.rfl
    by_cases hreach : ReflTransGen k.WaitsFor t i
    · rw [(hraised i hi).1 hreach, Nat.max_eq_left (hlow i hi hreach)]
    · exact (hraised i hi).2 hreach

/-- A boost by the task that then waits keeps the balance. -/
theorem linked_balanced {c t : Nat} (h : k.Balanced) (hcount : k'.taskCount = k.taskCount)
    (hc : c < k.taskCount) (hlink : ∀ u x, k'.WaitsFor u x ↔ k.WaitsFor u x ∨ (u = c ∧ x = t))
    (hbase : k'.basePrio = k.basePrio)
    (hraised : ∀ i < k.taskCount,
      (ReflTransGen k.WaitsFor t i → k'.prio i = max (k.prio i) (k.prio c))
        ∧ (¬ReflTransGen k.WaitsFor t i → k'.prio i = k.prio i)) : k'.Balanced := by
  intro i hi
  rw [hcount] at hi
  rw [hbase]
  exact (h i hi).link (h c hc) hlink (hraised i hi).1 (hraised i hi).2

/-! ### Restoring tasks that wait for nobody -/

theorem taskRestorePriority_prio {x : Nat} (hx : x < k.taskCount) :
    (taskRestorePriority k x).prio = Function.update k.prio x (effectivePriority k x) := by
  rw [taskRestorePriority, if_pos hx, setPriority_prio]

theorem taskRestorePriority_basePrio (k : Kernel) (x : Nat) :
    (taskRestorePriority k x).basePrio = k.basePrio :=
  (taskRestorePriority_reprioritized k x).kept Kernel.basePrio setPriority_basePrio

theorem taskRestorePriority_waitsFor (k : Kernel) (x : Nat) :
    (taskRestorePriority k x).WaitsFor = k.WaitsFor :=
  (taskRestorePriority_reprioritized k x).kept Kernel.WaitsFor setPriority_waitsFor

/-- What is restored of a task is the same before and behind the restoration
of one that waits for nobody. -/
theorem effectivePriority_restored {a x : Nat} (ha : a < k.taskCount) (hx : x < k.taskCount)
    (hsink : ∀ o, ¬k.WaitsFor a o) :
    effectivePriority (taskRestorePriority k a) x = effectivePriority k x := by
  have hcount : (taskRestorePriority k a).taskCount = k.taskCount := by simp
  have hafter := effectivePriority_isGreatest (k := taskRestorePriority k a) (hcount ▸ hx)
  rw [taskRestorePriority_waitsFor, taskRestorePriority_basePrio, taskRestorePriority_prio ha,
    offers_update (hsink x)] at hafter
  exact hafter.unique (effectivePriority_isGreatest hx)

/-- The priorities behind the restoration of tasks that wait for nobody, one
after the other. -/
theorem foldl_restore_spec {l : List Nat} (hl : ∀ x ∈ l, x < k.taskCount)
    (hsinks : ∀ x ∈ l, ∀ o, ¬k.WaitsFor x o) :
    (l.foldl taskRestorePriority k).taskCount = k.taskCount
      ∧ (l.foldl taskRestorePriority k).WaitsFor = k.WaitsFor
      ∧ (l.foldl taskRestorePriority k).basePrio = k.basePrio
      ∧ (∀ x ∈ l, (l.foldl taskRestorePriority k).prio x = effectivePriority k x)
      ∧ ∀ x ∉ l, (l.foldl taskRestorePriority k).prio x = k.prio x := by
  induction l generalizing k with
  | nil => exact ⟨rfl, rfl, rfl, fun x hx => absurd hx List.not_mem_nil, fun _ _ => rfl⟩
  | cons a l ih =>
      have ha : a < k.taskCount := hl a List.mem_cons_self
      have hcount : (taskRestorePriority k a).taskCount = k.taskCount := by simp
      have hwaits := taskRestorePriority_waitsFor k a
      have hset := taskRestorePriority_prio ha
      have hsink := hsinks a List.mem_cons_self
      obtain ⟨hcount', hwaits', hbase', hin, hout⟩ := ih (k := taskRestorePriority k a)
        (fun x hx => hcount ▸ hl x (List.mem_cons_of_mem a hx))
        (fun x hx => hwaits ▸ hsinks x (List.mem_cons_of_mem a hx))
      refine ⟨hcount'.trans hcount, hwaits'.trans hwaits,
        hbase'.trans (taskRestorePriority_basePrio k a), fun x hx => ?_, fun x hx => ?_⟩
      · rw [List.foldl_cons]
        by_cases hxl : x ∈ l
        · rw [hin x hxl, effectivePriority_restored ha (hl x hx) hsink]
        · have hxa : x = a := (List.mem_cons.mp hx).resolve_right hxl
          rw [hout x hxl, hset, hxa, Function.update_self]
      · rw [List.foldl_cons, hout x fun hxl => hx (List.mem_cons_of_mem a hxl), hset]
        exact Function.update_of_ne (fun heq : x = a => hx (heq ▸ List.mem_cons_self)) _ _

/-- The priorities of the tasks in `l` are restored between `k` and `k'`, and
no others are touched. -/
structure Restored (k : Kernel) (l : List Nat) (k' : Kernel) : Prop where
  base : k'.basePrio = k.basePrio
  restored : ∀ x ∈ l, LocalAt k'.WaitsFor k'.basePrio k'.prio x
  others : ∀ x ∉ l, k'.prio x = k.prio x

theorem foldl_restored {k₁ : Kernel} {l : List Nat} (hprio : PrioFrame k k₁)
    (hl : ∀ x ∈ l, x < k₁.taskCount) (hsinks : ∀ x ∈ l, ∀ o, ¬k₁.WaitsFor x o) :
    Restored k l (l.foldl taskRestorePriority k₁) := by
  obtain ⟨-, hwaits, hbase, hin, hoff⟩ := foldl_restore_spec hl hsinks
  refine ⟨hbase.trans hprio.2, fun x hx => ?_, fun x hx => (hoff x hx).trans (congrFun hprio.1 x)⟩
  have hgreatest := effectivePriority_isGreatest (hl x hx)
  rw [LocalAt, hwaits, hbase, hin x hx, offers_congr (fun _ => Iff.rfl)
    fun j hj => hoff j fun hjl => hsinks j hjl x hj]
  exact hgreatest

/-- Waits are rewired around some tasks that wait for nobody behind it, and
these are restored. -/
theorem Kernel.Balanced.rewired {l : List Nat} (h : k.Balanced) (hrestored : Restored k l k')
    (hcount : k'.taskCount = k.taskCount) (hout : ∀ u o, k.WaitsFor u o → u ∈ l → o ∈ l)
    (hsinks : ∀ x ∈ l, ∀ o, ¬k'.WaitsFor x o)
    (hsame : ∀ u o, o ∉ l → (k'.WaitsFor u o ↔ k.WaitsFor u o)) : k'.Balanced := by
  intro i hi
  rw [hrestored.base]
  refine balancedAt_of_rewired (S := k.table) (T := {x | x ∈ l}) h
    (fun u o hwaits _ => Nat.lt_of_lt_of_eq hwaits.1 hcount) hout
    (fun u o hwaits hu => hsinks u hu o hwaits) hsame (fun x hx => hrestored.others x hx)
    (fun x _ hxl => ?_) (Nat.lt_of_lt_of_eq hi hcount)
  have hlocal := hrestored.restored x hxl
  rwa [hrestored.base] at hlocal

/-- Behind a tick the priorities are balanced exactly if each cycle of waits it
leaves has a priority that some base priority still accounts for. -/
theorem tickTasks_balanced_iff (h : tickTasks k = .ok k') (hbalanced : k.Balanced) :
    k'.Balanced ↔ ∀ i < k.taskCount, TransGen k'.WaitsFor i i →
      ∃ j, ReflTransGen k'.WaitsFor j i ∧ k.basePrio j = k.prio i := by
  have hrelaxed := tickTasks_relaxed h
  have hcycles := hrelaxed.cycles hbalanced.settled
  constructor
  · intro hafter i hi hcycle
    obtain ⟨j, hj, hbase⟩ := (hafter i (hrelaxed.count ▸ hi)).1
    exact ⟨j, hj, by rw [← hrelaxed.base, ← hcycles i hcycle, hbase]⟩
  · intro haccounted
    refine (hrelaxed.settled hbalanced.settled).balanced fun i hi hcycle => ?_
    rw [hcycles i hcycle, hrelaxed.base]
    exact haccounted i (hrelaxed.count ▸ hi) hcycle

end Balance

/-! ## The critical sections of lock and unlock -/

/-- How the critical section of a lock ends. -/
inductive LockExit (k : Kernel) (m : Ptr) (timeout : UInt32) (deadline : TaskWaitDeadline) :
    Flow × Kernel → Prop where
  | acquired : (k.mutexes m).locked = 0 → LockExit k m timeout deadline
      (.returns 1, k.setMutex m ((k.mutexes m).lockedBy k.gCurrentTaskIndex))
  | reentered : (k.mutexes m).locked ≠ 0 → (k.mutexes m).owner = k.gCurrentTaskIndex →
      LockExit k m timeout deadline
        (.returns 1, k.setMutex m ((k.mutexes m).withRecursion ((k.mutexes m).recursion + 1)))
  | polled : (k.mutexes m).locked ≠ 0 → (k.mutexes m).owner ≠ k.gCurrentTaskIndex →
      timeout = 0 → LockExit k m timeout deadline (.returns 0, k)
  | abandoned : (k.mutexes m).locked ≠ 0 → (k.mutexes m).owner ≠ k.gCurrentTaskIndex →
      timeout ≠ 0 → deadline.Expired k.gKernelTicks → LockExit k m timeout deadline
        (.returns 0, taskInheritPriority k (k.mutexes m).owner (k.prio k.currentTask))
  | blocked : (k.mutexes m).locked ≠ 0 → (k.mutexes m).owner ≠ k.gCurrentTaskIndex →
      timeout ≠ 0 → ¬deadline.Expired k.gKernelTicks → LockExit k m timeout deadline
        (.yields, taskWaitBeginUntil
          (taskInheritPriority k (k.mutexes m).owner (k.prio k.currentTask)) k.currentTask
          (.ptr m) .mutex deadline)

theorem jrtMutexLock_exit (k : Kernel) (m : Ptr) (timeout : UInt32)
    (deadline : TaskWaitDeadline) :
    LockExit k m timeout deadline (jrtMutexLock k m timeout deadline false) := by
  simp only [jrtMutexLock, Bool.false_eq_true, if_false]
  by_cases hfree : (k.mutexes m).locked = 0
  · rw [if_pos hfree]
    exact .acquired hfree
  · rw [if_neg hfree]
    by_cases hown : (k.mutexes m).owner = k.gCurrentTaskIndex
    · rw [if_pos hown]
      exact .reentered hfree hown
    · rw [if_neg hown]
      by_cases htimeout : timeout = 0
      · rw [if_pos htimeout]
        exact .polled hfree hown htimeout
      · have hframe := taskInheritPriority_frame k (k.mutexes m).owner
          (k.tasks k.currentTask).priority
        simp only [TableFrame] at hframe
        rw [if_neg htimeout, taskBlockUntilLocked_eq]
        by_cases hexpired : deadline.Expired k.gKernelTicks
        · rw [if_pos (by rw [hframe.2.2.2.2.2.2.2.1]; exact hexpired)]
          exact .abandoned hfree hown htimeout hexpired
        · rw [if_neg (by rw [hframe.2.2.2.2.2.2.2.1]; exact hexpired), hframe.2.2.2.1]
          exact .blocked hfree hown htimeout hexpired

/-- An unlock by the running task leaves the mutex. -/
structure Kernel.FinalUnlock (k : Kernel) (m : Ptr) : Prop where
  locked : (k.mutexes m).locked ≠ 0
  owner : (k.mutexes m).owner = k.gCurrentTaskIndex
  last : ¬(k.mutexes m).recursion > 1

/-- The kernel behind an unlock: a final one restores the old owner, and then
the waiter it hands the mutex to. -/
inductive UnlockExit (k : Kernel) (m : Ptr) : Kernel → Prop where
  | refused : ¬k.FinalUnlock m → UnlockExit k m k
  | nested : ¬k.FinalUnlock m → UnlockExit k m
      (k.setMutex m ((k.mutexes m).withRecursion ((k.mutexes m).recursion - 1)))
  | released : k.FinalUnlock m → wakeSelect k (.ptr m) .mutex = none → UnlockExit k m
      ([k.gCurrentTaskIndex].foldl taskRestorePriority
        (k.setMutex m (k.mutexes m).unlocked))
  | handed {w : Nat} : k.FinalUnlock m → wakeSelect k (.ptr m) .mutex = some w → UnlockExit k m
      ([k.gCurrentTaskIndex, w].foldl taskRestorePriority
        ((taskWaitEnd k w 1 false).setMutex m ((k.mutexes m).lockedBy w)))

theorem jrtMutexUnlock_exit (k : Kernel) (m : Ptr) :
    UnlockExit k m (jrtMutexUnlock k m false).2 := by
  simp only [jrtMutexUnlock, Bool.false_eq_true, if_false]
  by_cases hnot : (k.mutexes m).locked = 0 ∨ (k.mutexes m).owner ≠ k.gCurrentTaskIndex
  · rw [if_pos hnot]
    exact .refused fun h => hnot.elim h.locked fun hne => hne h.owner
  · rw [if_neg hnot]
    obtain ⟨hlocked, howner⟩ := not_or.mp hnot
    rw [not_not] at howner
    by_cases hnested : (k.mutexes m).recursion > 1
    · rw [if_pos hnested]
      exact .nested fun h => h.last hnested
    · have hfinal : k.FinalUnlock m := ⟨hlocked, howner, hnested⟩
      rw [if_neg hnested, taskWakeGetId]
      cases hselect : wakeSelect k (.ptr m) .mutex with
      | none =>
          rw [howner]
          exact .released hfinal hselect
      | some w =>
          rw [howner]
          exact .handed hfinal hselect

end JustRT
