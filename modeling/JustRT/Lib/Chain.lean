import Mathlib.Data.Fintype.Pigeonhole
import Mathlib.Data.List.Nodup
import Mathlib.Logic.Function.Basic

/-!
# Chains of links

A singly linked list in a heap: nodes, a link function and a node that
ends every chain. `Linked nil next a l` says that the links from `a` pass
through the nodes `l`, in that order, and then reach `nil`. A chain that
ends visits no node twice, and only the links of its own nodes matter.
-/

namespace Chain

variable {α : Type*} {nil : α} {next next' : α → α} {a b : α} {l l' : List α}

/-- The links from the first node run through `l` to `nil`. -/
inductive Linked (nil : α) (next : α → α) : α → List α → Prop where
  | nil : Linked nil next nil []
  | cons {a : α} {l : List α} : a ≠ nil → Linked nil next (next a) l →
      Linked nil next a (a :: l)

namespace Linked

/-- The links are a function, so the chain is unique. -/
theorem unique (h : Linked nil next a l) (h' : Linked nil next a l') : l = l' := by
  induction h generalizing l' with
  | nil =>
      cases h' with
      | nil => rfl
      | cons hne => exact absurd rfl hne
  | cons hne _ ih =>
      cases h' with
      | nil => exact absurd rfl hne
      | cons _ hrest => rw [ih hrest]

theorem uncons (h : Linked nil next a l) (hne : a ≠ nil) :
    ∃ l', l = a :: l' ∧ Linked nil next (next a) l' := by
  cases h with
  | nil => exact absurd rfl hne
  | cons _ hrest => exact ⟨_, rfl, hrest⟩

theorem nil_not_mem (h : Linked nil next a l) : nil ∉ l := by
  induction h with
  | nil => exact List.not_mem_nil
  | cons hne _ ih =>
      intro hmem
      rcases List.mem_cons.mp hmem with heq | hmem
      · exact hne heq.symm
      · exact ih hmem

/-- From each of its nodes a chain continues with a suffix of itself. -/
theorem of_mem (h : Linked nil next a l) (hb : b ∈ l) :
    ∃ l', Linked nil next b l' ∧ l'.length ≤ l.length := by
  induction h with
  | nil => cases hb
  | cons hne hrest ih =>
      rcases List.mem_cons.mp hb with rfl | hb
      · exact ⟨_, .cons hne hrest, Nat.le_refl _⟩
      · obtain ⟨l', hl', hlen⟩ := ih hb
        exact ⟨l', hl', by rw [List.length_cons]; omega⟩

/-- A chain that ends visits no node twice: it would have to be longer than
itself. -/
theorem nodup (h : Linked nil next a l) : l.Nodup := by
  induction h with
  | nil => exact List.nodup_nil
  | cons hne hrest ih =>
      refine List.nodup_cons.mpr ⟨fun hmem => ?_, ih⟩
      obtain ⟨l', hl', hlen⟩ := hrest.of_mem hmem
      rw [hl'.unique (.cons hne hrest), List.length_cons] at hlen
      omega

/-- Only the links of its own nodes matter to a chain. -/
theorem congr (h : Linked nil next a l) (hnext : ∀ b ∈ l, next' b = next b) :
    Linked nil next' a l := by
  induction h with
  | nil => exact .nil
  | @cons a l hne hrest ih =>
      refine .cons hne ?_
      rw [hnext a List.mem_cons_self]
      exact ih fun b hb => hnext b (List.mem_cons_of_mem _ hb)

theorem push (h : Linked nil next a l) (hb : b ≠ nil) (hmem : b ∉ l) (hlink : next' b = a)
    (hnext : ∀ c, c ≠ b → next' c = next c) : Linked nil next' b (b :: l) := by
  refine .cons hb ?_
  rw [hlink]
  exact h.congr fun c hc => hnext c fun heq => hmem (heq ▸ hc)

/-! The nodes of a chain are the walk from its first node. -/

theorem getElem_eq (h : Linked nil next a l) {i : Nat} (hi : i < l.length) :
    l[i] = next^[i] a := by
  induction h generalizing i with
  | nil => exact absurd hi (Nat.not_lt_zero i)
  | cons _ _ ih =>
      cases i with
      | zero => rfl
      | succ i => exact ih (Nat.lt_of_succ_lt_succ hi)

theorem iterate_length (h : Linked nil next a l) : next^[l.length] a = nil := by
  induction h with
  | nil => rfl
  | cons _ _ ih => exact ih

theorem iterate_ne (h : Linked nil next a l) {i : Nat} (hi : i < l.length) :
    next^[i] a ≠ nil := by
  intro heq
  rw [← h.getElem_eq hi] at heq
  exact h.nil_not_mem (heq ▸ List.getElem_mem hi)

/-- The walk is on the chain until it first reaches `nil`. -/
theorem lt_length_iff (h : Linked nil next a l) {i : Nat} :
    i < l.length ↔ ∀ j ≤ i, next^[j] a ≠ nil := by
  refine ⟨fun hi j hj => h.iterate_ne (Nat.lt_of_le_of_lt hj hi), fun hall => ?_⟩
  by_contra hle
  exact hall l.length (Nat.not_lt.mp hle) h.iterate_length

end Linked

theorem exists_linked_iff : (∃ l, Linked nil next a l) ↔ ∃ n, next^[n] a = nil := by
  constructor
  · rintro ⟨l, hl⟩
    exact ⟨l.length, hl.iterate_length⟩
  · rintro ⟨n, hn⟩
    induction n generalizing a with
    | zero => exact ⟨[], hn ▸ .nil⟩
    | succ n ih =>
        by_cases ha : a = nil
        · exact ⟨[], ha ▸ .nil⟩
        · obtain ⟨l, hl⟩ := ih hn
          exact ⟨a :: l, .cons ha hl⟩

/-! ## The tortoise and the hare

Two walkers follow the links from one node, one of them two links at a
time. Among finitely many nodes they meet. -/

section Meeting

variable {N : Nat} {m n : Nat}

/-- Behind a node that comes up twice, the walk repeats itself. -/
theorem iterate_period (h : next^[m] a = next^[n] a) (hmn : m ≤ n) (t : Nat) {j : Nat}
    (hj : m ≤ j) : next^[j + t * (n - m)] a = next^[j] a := by
  induction t with
  | zero => rw [Nat.zero_mul, Nat.add_zero]
  | succ t ih =>
      have hsplit : j + (t + 1) * (n - m) = (j - m + t * (n - m)) + n := by
        rw [Nat.add_mul, Nat.one_mul]
        omega
      have hback : (j - m + t * (n - m)) + m = j + t * (n - m) := by omega
      rw [hsplit, Function.iterate_add_apply, ← h, ← Function.iterate_add_apply, hback, ih]

/-- Of at most `N` nodes one comes up twice in the first `N` links. -/
theorem exists_iterate_eq (code : α → Fin N) (hcode : Function.Injective code) (next : α → α)
    (a : α) : ∃ m n, m < n ∧ n ≤ N ∧ next^[m] a = next^[n] a := by
  obtain ⟨i, j, hne, heq⟩ := Fintype.exists_ne_map_eq_of_card_lt
    (fun i : Fin (N + 1) => code (next^[i] a)) (by simp)
  have hi := i.isLt
  have hj := j.isLt
  rcases Nat.lt_or_gt_of_ne (Fin.val_ne_of_ne hne) with hlt | hlt
  · exact ⟨i, j, hlt, Nat.le_of_lt_succ hj, hcode heq⟩
  · exact ⟨j, i, hlt, Nat.le_of_lt_succ hi, hcode heq.symm⟩

/-- The walkers meet within as many steps as there are nodes: at the first
multiple of the period behind the start of the repetition. -/
theorem exists_meeting (code : α → Fin N) (hcode : Function.Injective code) (next : α → α)
    (a : α) : ∃ i, 1 ≤ i ∧ i ≤ N ∧ next^[i] a = next^[2 * i] a := by
  obtain ⟨m, n, hmn, hn, heq⟩ := exists_iterate_eq code hcode next a
  have hperiod : 0 < n - m := by omega
  -- The least positive multiple of the period from `m` on.
  obtain ⟨t, ht, hm, hle⟩ : ∃ t, 1 ≤ t ∧ m ≤ t * (n - m) ∧ t * (n - m) ≤ n := by
    refine ⟨m / (n - m) + 1, Nat.le_add_left 1 _, ?_, ?_⟩
    · rw [Nat.mul_comm]
      exact Nat.le_of_lt (Nat.lt_mul_div_succ m hperiod)
    · have hdiv := Nat.div_mul_le_self m (n - m)
      rw [Nat.add_mul, Nat.one_mul]
      omega
  have hpos : 1 ≤ t * (n - m) := Nat.mul_pos ht hperiod
  refine ⟨t * (n - m), hpos, hle.trans hn, ?_⟩
  rw [Nat.two_mul]
  exact (iterate_period heq (Nat.le_of_lt hmn) t hm).symm

/-- Inside a finite set a walk visits nothing new behind as many links as
the set has nodes. -/
theorem exists_iterate_lt {S : Finset α} (hnext : ∀ b ∈ S, next b ∈ S) (ha : a ∈ S) (d : Nat) :
    ∃ e < S.card, next^[e] a = next^[d] a := by
  induction d using Nat.strong_induction_on with
  | _ d ih =>
      by_cases hd : d < S.card
      · exact ⟨d, hd, rfl⟩
      have hmem : ∀ i, next^[i] a ∈ S := by
        intro i
        induction i with
        | zero => exact ha
        | succ i ih =>
            rw [Function.iterate_succ_apply']
            exact hnext _ ih
      obtain ⟨i, hi, j, hj, hne, heq⟩ := Finset.exists_ne_map_eq_of_card_lt_of_maps_to
        (s := Finset.range (S.card + 1)) (t := S) (f := fun i => next^[i] a) (by simp)
        fun i _ => hmem i
      have hback : ∀ {i j}, i < j → j ≤ S.card → next^[i] a = next^[j] a →
          ∃ e < S.card, next^[e] a = next^[d] a := by
        intro i j hij hj heq
        obtain ⟨e, he, hsame⟩ := ih (d - j + i) (by omega)
        refine ⟨e, he, hsame.trans ?_⟩
        rw [Function.iterate_add_apply, heq, ← Function.iterate_add_apply,
          Nat.sub_add_cancel (by omega)]
      rw [Finset.mem_range, Nat.lt_succ_iff] at hi hj
      rcases Nat.lt_or_gt_of_ne hne with hlt | hlt
      · exact hback hlt hj heq
      · exact hback hlt hi heq.symm

end Meeting

end Chain
