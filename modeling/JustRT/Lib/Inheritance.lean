import Mathlib.Data.Set.Card
import Mathlib.Logic.Relation
import Mathlib.Order.Bounds.Lattice

/-!
# Inherited values

The nodes of a graph have a base value and a value they show. An edge
`waits u o` is a node `u` that waits for `o`, and a node is to show the
greatest base value among all that wait for it, directly or through others:
`BalancedAt`. A program can compute one level of it from the values shown
next to a node: `LocalAt`. The two agree where no cycle of waits passes; on
a cycle the local equation leaves a value in place that no base accounts
for.
-/

namespace Inheritance

open Relation

variable {ι α : Type*}

/-- What a node is to show by its own base value and the values of its
waiters. -/
def offers (waits : ι → ι → Prop) (base value : ι → α) (i : ι) : Set α :=
  {p | p = base i ∨ ∃ j, waits j i ∧ value j = p}

/-- The offers a node has where each of its waiters shows the same. -/
theorem offers_congr {waits waits' : ι → ι → Prop} {base value value' : ι → α} {i : ι}
    (hsame : ∀ j, waits' j i ↔ waits j i) (hvalue : ∀ j, waits j i → value' j = value j) :
    offers waits' base value' i = offers waits base value i := by
  ext p
  constructor
  · rintro (hbase | ⟨j, hj, rfl⟩)
    · exact Or.inl hbase
    · have hwaits := (hsame j).mp hj
      exact Or.inr ⟨j, hwaits, (hvalue j hwaits).symm⟩
  · rintro (hbase | ⟨j, hj, rfl⟩)
    · exact Or.inl hbase
    · exact Or.inr ⟨j, (hsame j).mpr hj, hvalue j hj⟩

variable [LinearOrder α]

/-- The node shows the greatest base value of those that reach it. -/
def BalancedAt (waits : ι → ι → Prop) (base value : ι → α) (i : ι) : Prop :=
  IsGreatest {p | ∃ j, ReflTransGen waits j i ∧ base j = p} (value i)

/-- The node shows the greatest of its base value and the values of its
waiters. -/
def LocalAt (waits : ι → ι → Prop) (base value : ι → α) (i : ι) : Prop :=
  IsGreatest (offers waits base value i) (value i)

/-- The node shows too much, if anything. -/
def CoversAt (waits : ι → ι → Prop) (base value : ι → α) (i : ι) : Prop :=
  value i ∈ upperBounds (offers waits base value i)

variable {waits waits' : ι → ι → Prop} {base value value' : ι → α} {i j t c : ι} {S : Set ι}

/-! ## One level and all levels -/

theorem CoversAt.base_le (h : CoversAt waits base value i) : base i ≤ value i := h (Or.inl rfl)

theorem CoversAt.le (h : CoversAt waits base value i) (hj : waits j i) : value j ≤ value i :=
  h (Or.inr ⟨j, hj, rfl⟩)

theorem LocalAt.covers (h : LocalAt waits base value i) : CoversAt waits base value i := h.2

theorem BalancedAt.base_le (h : BalancedAt waits base value i) (hj : ReflTransGen waits j i) :
    base j ≤ value i := h.2 ⟨j, hj, rfl⟩

/-- A waiter never shows more than the node it waits for. -/
theorem BalancedAt.le (hi : BalancedAt waits base value i) (hj : BalancedAt waits base value j)
    (hreach : ReflTransGen waits j i) : value j ≤ value i := by
  obtain ⟨l, hl, hbase⟩ := hj.1
  rw [← hbase]
  exact hi.base_le (hl.trans hreach)

theorem BalancedAt.localAt (hi : BalancedAt waits base value i)
    (hwaiters : ∀ j, waits j i → BalancedAt waits base value j) : LocalAt waits base value i := by
  constructor
  · obtain ⟨l, hl, hbase⟩ := hi.1
    rcases hl.cases_tail with rfl | ⟨j, hlj, hj⟩
    · exact Or.inl hbase.symm
    · refine Or.inr ⟨j, hj, le_antisymm (hi.le (hwaiters j hj) (.single hj)) ?_⟩
      rw [← hbase]
      exact (hwaiters j hj).base_le hlj
  · rintro p (rfl | ⟨j, hj, rfl⟩)
    · exact hi.base_le .refl
    · exact hi.le (hwaiters j hj) (.single hj)

/-- One level is enough where the waiters are balanced. -/
theorem LocalAt.balancedAt (hi : LocalAt waits base value i)
    (hwaiters : ∀ j, waits j i → BalancedAt waits base value j) :
    BalancedAt waits base value i := by
  constructor
  · rcases hi.1 with hbase | ⟨j, hj, hvalue⟩
    · exact ⟨i, .refl, hbase.symm⟩
    · obtain ⟨l, hl, hbase⟩ := (hwaiters j hj).1
      exact ⟨l, hl.tail hj, hbase.trans hvalue⟩
  · rintro p ⟨l, hl, rfl⟩
    rcases hl.cases_tail with rfl | ⟨j, hlj, hj⟩
    · exact hi.covers.base_le
    · exact ((hwaiters j hj).base_le hlj).trans (hi.covers.le hj)

theorem value_le_of_reaches (hcovers : ∀ x, ReflTransGen waits x i → CoversAt waits base value x)
    (hj : ReflTransGen waits j i) : value j ≤ value i := by
  induction hj using ReflTransGen.head_induction_on with
  | refl => exact le_rfl
  | head hstep hrest ih => exact ((hcovers _ hrest).le hstep).trans ih

theorem base_le_of_reaches (hcovers : ∀ x, ReflTransGen waits x i → CoversAt waits base value x)
    (hj : ReflTransGen waits j i) : base j ≤ value i :=
  (hcovers j hj).base_le.trans (value_le_of_reaches hcovers hj)

/-! ## Cycles -/

/-- Whatever reaches a node of a closed set is in it. -/
theorem mem_of_reaches (hclosed : ∀ u o, waits u o → o ∈ S → u ∈ S)
    (hj : ReflTransGen waits j i) (hi : i ∈ S) : j ∈ S := by
  induction hj using ReflTransGen.head_induction_on with
  | refl => exact hi
  | head hstep _ ih => exact hclosed _ _ hstep ih

/-- A node on no cycle is reached by more nodes than any of its waiters. -/
theorem ncard_reaching_lt (hfinite : S.Finite) (hclosed : ∀ u o, waits u o → o ∈ S → u ∈ S)
    (hi : i ∈ S) (hcycle : ¬TransGen waits i i) (hj : waits j i) :
    {x | ReflTransGen waits x j}.ncard < {x | ReflTransGen waits x i}.ncard := by
  have hsub : {x | ReflTransGen waits x i} ⊆ S := fun _ hx => mem_of_reaches hclosed hx hi
  refine Set.ncard_lt_ncard ⟨fun x hx => hx.tail hj, fun hback => ?_⟩ (hfinite.subset hsub)
  have hij : ReflTransGen waits i j := hback ReflTransGen.refl
  exact hcycle (.tail' hij hj)

/-- Local values are balanced if each cycle shows a value some base value
accounts for. The induction is on the number of nodes that reach one, and
passes no cycle. -/
theorem balancedAt_of_local (hfinite : S.Finite) (hclosed : ∀ u o, waits u o → o ∈ S → u ∈ S)
    (hlocal : ∀ x ∈ S, LocalAt waits base value x)
    (hcycle : ∀ x ∈ S, TransGen waits x x → ∃ j, ReflTransGen waits j x ∧ base j = value x)
    (hi : i ∈ S) : BalancedAt waits base value i := by
  induction hn : {x | ReflTransGen waits x i}.ncard using Nat.strong_induction_on generalizing i with
  | _ n ih =>
      by_cases hon : TransGen waits i i
      · refine ⟨hcycle i hi hon, ?_⟩
        rintro p ⟨j, hj, rfl⟩
        exact base_le_of_reaches (fun x hx => (hlocal x (mem_of_reaches hclosed hx hi)).covers) hj
      · refine (hlocal i hi).balancedAt fun j hj => ?_
        have hlt := ncard_reaching_lt hfinite hclosed hi hon hj
        exact ih _ (hn ▸ hlt) (hclosed j i hj hi) rfl

/-! ## Edges that come and go -/

/-- Edges that end in a set no path leaves do not matter outside of it. -/
theorem reaches_off (hout : ∀ u o, waits u o → o ∉ S → u ∉ S)
    (hsame : ∀ u o, o ∉ S → waits u o → waits' u o) (hj : ReflTransGen waits j i) (hi : i ∉ S) :
    ReflTransGen waits' j i := by
  induction hj with
  | refl => exact .refl
  | tail _ hstep ih => exact (ih (hout _ _ hstep hi)).tail (hsame _ _ hi hstep)

/-- A node keeps its balance if the same nodes reach it. -/
theorem BalancedAt.congr (hi : BalancedAt waits base value i) (hvalue : value' i = value i)
    (hreach : ∀ j, ReflTransGen waits' j i ↔ ReflTransGen waits j i) :
    BalancedAt waits' base value' i := by
  rw [BalancedAt, hvalue]
  simp only [hreach]
  exact hi

/-- Without some of the edges a value may be too high, never too low. -/
theorem BalancedAt.of_subgraph (hi : BalancedAt waits base value i)
    (hsub : ∀ u o, waits' u o → waits u o)
    (hattained : ∃ j, ReflTransGen waits' j i ∧ base j = value i) :
    BalancedAt waits' base value i := by
  refine ⟨hattained, ?_⟩
  rintro p ⟨j, hj, rfl⟩
  exact hi.base_le (ReflTransGen.mono hsub _ _ hj)

/-- Where waits change only at some nodes that wait for nobody, it is enough
that each of these shows what its waiters offer. -/
theorem balancedAt_of_rewired (hbalanced : ∀ x ∈ S, BalancedAt waits base value x)
    (hclosed : ∀ u o, waits' u o → o ∈ S → u ∈ S) {T : Set ι}
    (hout : ∀ u o, waits u o → u ∈ T → o ∈ T) (hsinks : ∀ u o, waits' u o → u ∉ T)
    (hsame : ∀ u o, o ∉ T → (waits' u o ↔ waits u o)) (hvalue : ∀ x ∉ T, value' x = value x)
    (hlocal : ∀ x ∈ S, x ∈ T → LocalAt waits' base value' x) (hi : i ∈ S) :
    BalancedAt waits' base value' i := by
  have hoff : ∀ x ∈ S, x ∉ T → BalancedAt waits' base value' x := by
    intro x hx hxT
    refine (hbalanced x hx).congr (hvalue x hxT) fun j => ⟨fun hj => ?_, fun hj => ?_⟩
    · exact reaches_off (fun u o h _ => hsinks u o h) (fun u o ho => (hsame u o ho).mp) hj hxT
    · exact reaches_off (fun u o h ho hu => ho (hout u o h hu)) (fun u o ho => (hsame u o ho).mpr)
        hj hxT
  by_cases hiT : i ∈ T
  · refine (hlocal i hi hiT).balancedAt fun j hj => ?_
    exact hoff j (hclosed j i hj hi) (hsinks j i hj)
  · exact hoff i hi hiT

/-- Paths with a new edge: without it, or up to it and on from it. -/
theorem reaches_link_iff (hlink : ∀ u o, waits' u o ↔ waits u o ∨ (u = c ∧ o = t)) :
    ReflTransGen waits' j i
      ↔ ReflTransGen waits j i ∨ (ReflTransGen waits j c ∧ ReflTransGen waits t i) := by
  constructor
  · intro hj
    induction hj using ReflTransGen.head_induction_on with
    | refl => exact Or.inl .refl
    | head hstep _ ih =>
        rcases (hlink _ _).mp hstep with hold | ⟨rfl, rfl⟩
        · exact ih.imp (ReflTransGen.head hold) (And.imp_left (ReflTransGen.head hold))
        · exact Or.inr ⟨.refl, ih.elim id And.right⟩
  · have hmono : ∀ {a b}, ReflTransGen waits a b → ReflTransGen waits' a b := fun h =>
      ReflTransGen.mono (fun u o hold => (hlink u o).mpr (Or.inl hold)) _ _ h
    rintro (hj | ⟨hjc, hti⟩)
    · exact hmono hj
    · exact ((hmono hjc).tail ((hlink c t).mpr (Or.inr ⟨rfl, rfl⟩))).trans (hmono hti)

/-- A new waiter raises what it now reaches, and no more. -/
theorem BalancedAt.link (hi : BalancedAt waits base value i) (hc : BalancedAt waits base value c)
    (hlink : ∀ u o, waits' u o ↔ waits u o ∨ (u = c ∧ o = t))
    (hraised : ReflTransGen waits t i → value' i = max (value i) (value c))
    (hkept : ¬ReflTransGen waits t i → value' i = value i) :
    BalancedAt waits' base value' i := by
  by_cases hti : ReflTransGen waits t i
  · have hset : {p | ∃ j, ReflTransGen waits' j i ∧ base j = p}
        = {p | ∃ j, ReflTransGen waits j i ∧ base j = p}
          ∪ {p | ∃ j, ReflTransGen waits j c ∧ base j = p} := by
      ext p
      simp only [reaches_link_iff hlink, hti, and_true, Set.mem_ofPred_eq, Set.mem_union,
        or_and_right, exists_or]
    rw [BalancedAt, hset, hraised hti]
    exact hi.union hc
  · refine hi.congr (hkept hti) fun j => ?_
    rw [reaches_link_iff hlink]
    simp [hti]

/-! ## Restoring one value -/

section Restore

variable {e : α} {x : ι}

/-- A value that is too high is that of a node on no cycle. -/
theorem not_cycle_of_lt (hcovers : ∀ x, ReflTransGen waits x i → CoversAt waits base value x)
    (he : e ∈ upperBounds (offers waits base value i)) (hlt : e < value i) :
    ¬TransGen waits i i := by
  intro hcycle
  obtain ⟨y, hiy, hyi⟩ := TransGen.tail'_iff.mp hcycle
  have hle : value i ≤ value y :=
    value_le_of_reaches (fun x hx => hcovers x (hx.tail hyi)) hiy
  have hye : value y ≤ e := he (Or.inr ⟨y, hyi, rfl⟩)
  exact absurd (hle.trans hye) (not_le_of_gt hlt)

variable [DecidableEq ι]

omit [LinearOrder α] in
theorem offers_update (h : ¬waits i x) :
    offers waits base (Function.update value i e) x = offers waits base value x :=
  offers_congr (fun _ => Iff.rfl) fun j hj =>
    Function.update_of_ne (fun heq : j = i => h (heq ▸ hj)) _ _

theorem localAt_update_self (he : IsGreatest (offers waits base value i) e) (h : ¬waits i i) :
    LocalAt waits base (Function.update value i e) i := by
  rw [LocalAt, offers_update h, Function.update_self]
  exact he

theorem LocalAt.update (hx : LocalAt waits base value x) (hne : x ≠ i) (h : ¬waits i x) :
    LocalAt waits base (Function.update value i e) x := by
  rw [LocalAt, offers_update h, Function.update_of_ne hne]
  exact hx

/-- Lowering a value leaves the node behind it too high, at most. -/
theorem CoversAt.update (hx : CoversAt waits base value x) (hne : x ≠ i) (he : e ≤ value i) :
    CoversAt waits base (Function.update value i e) x := by
  rw [CoversAt, Function.update_of_ne hne]
  rintro p (rfl | ⟨j, hj, rfl⟩)
  · exact hx.base_le
  · by_cases hji : j = i
    · subst hji
      rw [Function.update_self]
      exact he.trans (hx.le hj)
    · rw [Function.update_of_ne hji]
      exact hx.le hj

end Restore

/-! ## Ranked waits -/

section Ranked

variable {β : Type*} [Preorder β] {rank : ι → β} {u o v : ι}

omit [LinearOrder α]

/-- Of two waits in a row the first one has the lower rank. -/
def Ranked (waits : ι → ι → Prop) (rank : ι → β) : Prop :=
  ∀ u o v, waits u o → waits o v → rank u < rank o

theorem Ranked.lt (h : Ranked waits rank) (hpath : TransGen waits u o) (hnext : waits o v) :
    rank u < rank o := by
  induction hpath using TransGen.head_induction_on with
  | single hstep => exact h _ _ _ hstep hnext
  | head hstep hrest ih =>
      obtain ⟨w, hfirst, -⟩ := TransGen.head'_iff.mp hrest
      exact (h _ _ _ hstep hfirst).trans ih

theorem Ranked.acyclic (h : Ranked waits rank) (i : ι) : ¬TransGen waits i i := by
  intro hcycle
  obtain ⟨v, hfirst, -⟩ := TransGen.head'_iff.mp hcycle
  exact lt_irrefl _ (h.lt hcycle hfirst)

/-- In a finite graph without cycles every path leads to a node that waits for
nobody. -/
theorem exists_end (hfinite : S.Finite) (hclosed : ∀ u o, waits u o → u ∈ S → o ∈ S)
    (hacyclic : ∀ i, ¬TransGen waits i i) (hi : i ∈ S) :
    ∃ o, ReflTransGen waits i o ∧ ∀ v, ¬waits o v := by
  induction hn : {x | ReflTransGen (Function.swap waits) x i}.ncard using Nat.strong_induction_on
    generalizing i with
  | _ n ih =>
      by_cases hend : ∃ o, waits i o
      · obtain ⟨o, hstep⟩ := hend
        have hlt := ncard_reaching_lt hfinite (fun u o hwaits ho => hclosed o u hwaits ho) hi
          (fun hcycle => hacyclic i (transGen_swap.mp hcycle)) (show Function.swap waits o i from hstep)
        obtain ⟨e, hpath, hlast⟩ := ih _ (hn ▸ hlt) (hclosed i o hstep hi) rfl
        exact ⟨e, hpath.head hstep, hlast⟩
      · exact ⟨i, .refl, fun v hwaits => hend ⟨v, hwaits⟩⟩

end Ranked

end Inheritance
