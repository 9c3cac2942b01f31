import Mathlib.Data.List.MinMax
import Mathlib.Order.Bounds.Basic

/-!
# Linear scans

Loops over an index range that keep the best candidate seen so far: the
first index of greatest key among those that pass a test (`bestStep`),
and the greatest key above a starting value (`raise`). Both are folds, as
a program writes them; the lemmas say what they end with.
-/

namespace Scan

variable {α κ σ : Type*}

/-! ## The first index of greatest key -/

section Best

variable [LinearOrder κ] (p : α → Bool) (key : α → κ)

/-- One iteration: a candidate replaces the kept one if its key is greater. -/
def bestStep (kept : Option α) (a : α) : Option α :=
  if p a then
    match kept with
    | none => some a
    | some b => if key a > key b then some a else kept
  else kept

theorem foldl_bestStep_eq_argmax (l : List α) :
    l.foldl (bestStep p key) none = (l.filter p).argmax key := by
  suffices h : ∀ kept, l.foldl (bestStep p key) kept
      = (l.filter p).foldl (List.argAux fun b c => key c < key b) kept from h none
  intro kept
  induction l generalizing kept with
  | nil => rfl
  | cons a l ih =>
      by_cases hp : p a = true
      · have hstep : bestStep p key kept a = List.argAux (fun b c => key c < key b) kept a := by
          cases kept <;> simp [bestStep, List.argAux, hp]
        rw [List.filter_cons_of_pos hp, List.foldl_cons, List.foldl_cons, hstep, ih]
      · have hstep : bestStep p key kept a = kept := by simp [bestStep, hp]
        rw [List.filter_cons_of_neg hp, List.foldl_cons, hstep, ih]

theorem best_eq_none_iff {l : List α} :
    l.foldl (bestStep p key) none = none ↔ ∀ a ∈ l, p a = false := by
  rw [foldl_bestStep_eq_argmax, List.argmax_eq_none, List.filter_eq_nil_iff]
  simp

/-- What the scan selects is a candidate, and no candidate has a greater key. -/
theorem best_spec {l : List α} {m : α} (h : l.foldl (bestStep p key) none = some m) :
    m ∈ l ∧ p m = true ∧ ∀ a ∈ l, p a = true → key a ≤ key m := by
  rw [foldl_bestStep_eq_argmax] at h
  have hm : m ∈ l.filter p := List.argmax_mem (Option.mem_def.mpr h)
  rw [List.mem_filter] at hm
  refine ⟨hm.1, hm.2, fun a ha hp => ?_⟩
  exact List.le_of_mem_argmax (List.mem_filter.mpr ⟨ha, hp⟩) (Option.mem_def.mpr h)

/-- Among the candidates of the greatest key it is the first in the order the
scan runs in. -/
theorem best_le [LinearOrder α] {l : List α} {m a : α} (hl : l.Pairwise (· < ·))
    (h : l.foldl (bestStep p key) none = some m) (ha : a ∈ l) (hp : p a = true)
    (hkey : key m ≤ key a) : m ≤ a := by
  rw [foldl_bestStep_eq_argmax] at h
  obtain ⟨hm, -, hfirst⟩ := List.mem_argmax_iff.mp (Option.mem_def.mpr h)
  have ha' : a ∈ l.filter p := List.mem_filter.mpr ⟨ha, hp⟩
  have hsorted := hl.filter p
  have hindex := hfirst a ha' hkey
  generalize l.filter p = l' at hm ha' hsorted hindex
  rcases Nat.eq_or_lt_of_le hindex with heq | hlt
  · exact le_of_eq ((List.idxOf_inj hm).mp heq)
  · have hlt' := List.pairwise_iff_getElem.mp hsorted _ _ (List.idxOf_lt_length_of_mem hm)
      (List.idxOf_lt_length_of_mem ha') hlt
    rw [List.getElem_idxOf, List.getElem_idxOf] at hlt'
    exact le_of_lt hlt'

end Best

/-! ## The greatest key -/

section Raise

variable [LinearOrder κ] (p : α → Prop) [DecidablePred p] (key : α → κ)

/-- Raise a value to the key of every element that passes the test. -/
def raise (l : List α) (start : κ) : κ :=
  l.foldl (fun best a => if p a ∧ key a > best then key a else best) start

theorem raise_cons (a : α) (l : List α) (start : κ) :
    raise p key (a :: l) start
      = raise p key l (if p a ∧ key a > start then key a else start) := rfl

theorem raise_isGreatest (l : List α) (start : κ) :
    IsGreatest {x | x = start ∨ ∃ a ∈ l, p a ∧ x = key a} (raise p key l start) := by
  induction l generalizing start with
  | nil => simp [raise, IsGreatest, upperBounds]
  | cons a l ih =>
      rw [raise_cons]
      obtain ⟨hmem, hub⟩ := ih (if p a ∧ key a > start then key a else start)
      have hstart := hub (Or.inl rfl)
      refine ⟨?_, ?_⟩
      · rcases hmem with h | ⟨b, hb, hpb, h⟩
        · rw [h]
          split
          · next hc => exact Or.inr ⟨a, List.mem_cons_self, hc.1, rfl⟩
          · exact Or.inl rfl
        · exact Or.inr ⟨b, List.mem_cons_of_mem _ hb, hpb, h⟩
      · rintro x (rfl | ⟨b, hb, hpb, rfl⟩)
        · refine le_trans ?_ hstart
          split
          · next hc => exact hc.2.le
          · exact le_rfl
        · rcases List.mem_cons.mp hb with rfl | hb
          · refine le_trans ?_ hstart
            split
            · exact le_rfl
            · next hc => exact not_lt.mp fun hlt => hc ⟨hpb, hlt⟩
          · exact hub (Or.inr ⟨b, hb, hpb, rfl⟩)

end Raise

/-! ## The last index -/

/-- A search from the end finds the last index that passes the test. -/
theorem find?_reverse_range_eq_some_iff {p : Nat → Bool} {n r : Nat} :
    (List.range n).reverse.find? p = some r
      ↔ r < n ∧ p r = true ∧ ∀ i, r < i → i < n → p i = false := by
  induction n with
  | zero => simp
  | succ n ih =>
      rw [List.range_succ, List.reverse_append, List.reverse_singleton, List.singleton_append,
        List.find?_cons]
      cases hp : p n with
      | true =>
          simp only [Option.some.injEq]
          constructor
          · rintro rfl
            exact ⟨Nat.lt_succ_self n, hp, fun i hlt hi => by omega⟩
          · rintro ⟨hr, hpr, hlast⟩
            by_contra hne
            rw [hlast n (by omega) (Nat.lt_succ_self n)] at hp
            cases hp
      | false =>
          rw [ih]
          constructor
          · rintro ⟨hr, hpr, hlast⟩
            refine ⟨by omega, hpr, fun i hlt hi => ?_⟩
            rcases Nat.lt_succ_iff_lt_or_eq.mp hi with hi | rfl
            · exact hlast i hlt hi
            · exact hp
          · rintro ⟨hr, hpr, hlast⟩
            have hne : r ≠ n := by
              rintro rfl
              rw [hpr] at hp
              cases hp
            exact ⟨by omega, hpr, fun i hlt hi => hlast i hlt (by omega)⟩

/-! ## Folds and transitive relations -/

/-- A relation every iteration keeps to is kept by the whole loop. -/
theorem foldl_rel {r : σ → σ → Prop} (hrefl : ∀ s, r s s)
    (htrans : ∀ {a b c}, r a b → r b c → r a c) {f : σ → α → σ} (hstep : ∀ s a, r s (f s a))
    (l : List α) (s : σ) : r s (l.foldl f s) := by
  induction l generalizing s with
  | nil => exact hrefl s
  | cons a l ih => exact htrans (hstep s a) (ih (f s a))

/-- What no iteration changes the whole loop leaves alone. -/
theorem foldl_frame {β : Type*} {o : σ → β} {f : σ → α → σ} {l : List α}
    (h : ∀ s, ∀ a ∈ l, o (f s a) = o s) (s : σ) : o (l.foldl f s) = o s := by
  induction l generalizing s with
  | nil => rfl
  | cons a l ih =>
      rw [List.foldl_cons, ih fun s b hb => h s b (List.mem_cons_of_mem a hb)]
      exact h s a List.mem_cons_self

/-- What only the iteration at `b` changes holds what that iteration makes
of it. -/
theorem foldl_visit {β : Type*} {o : σ → β} {f : σ → α → σ} {l : List α} {b : α}
    (hl : l.Nodup) (hb : b ∈ l) (h : ∀ s a, a ≠ b → o (f s a) = o s) (s : σ) :
    ∃ s₁, o s₁ = o s ∧ o (l.foldl f s) = o (f s₁ b) := by
  obtain ⟨l₁, l₂, rfl⟩ := List.append_of_mem hb
  obtain ⟨-, hl₂, hdisjoint⟩ := List.nodup_append.mp hl
  have hne₁ : ∀ a ∈ l₁, a ≠ b := fun a ha => hdisjoint a ha b List.mem_cons_self
  have hne₂ : ∀ a ∈ l₂, a ≠ b := fun a ha hab =>
    (List.nodup_cons.mp hl₂).1 (hab ▸ ha)
  refine ⟨l₁.foldl f s, foldl_frame (fun s a ha => h s a (hne₁ a ha)) s, ?_⟩
  rw [List.foldl_append, List.foldl_cons]
  exact foldl_frame (fun s a ha => h s a (hne₂ a ha)) _

end Scan
