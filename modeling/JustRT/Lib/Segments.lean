import JustRT.Lib.Interference
import Mathlib.Logic.Relation

/-!
# Programs and their segments

What a program under interference does between two points where interrupts are
on looks like one step from outside. `Segments` is a machine with such steps: a
label says where the program stands, and a segment goes from label to label and
changes the abstract state at once.

`Prog.Follows` says that a program is refined by the machine: each of its masked
stretches is a number of segments, taken where the stretch ends, or ahead of it
if they change nothing; each update it makes with interrupts on is a number of
segments by itself, and it leaves the core where the label says. It is defined
by recursion on the program and has a rule for `bind`. Whatever comes in between
is only known to leave a state in which the program may run again.
-/

namespace Interference

variable {σ κ μ ρ ε α β L : Type}

/-- A machine with the segments of a program as its steps. `abs` is what of the
program's state its segments speak of, `good` what a program can rely on
whenever it runs, and `leave` where its labels leave the core. -/
structure Segments (σ κ ρ L α : Type) where
  abs : σ → κ
  good : κ → Prop
  step : L → κ → L → κ → Prop
  leave : ρ → L → L → Prop
  final : L → α → Prop

namespace Segments

variable (S : Segments σ κ ρ L α)

/-- A number of segments. -/
def Steps (l : L) (k : κ) (l' : L) (k' : κ) : Prop :=
  Relation.ReflTransGen (fun a b : L × κ => S.step a.1 a.2 b.1 b.2) (l, k) (l', k')

variable {S} {l l' : L} {k k' : κ}

theorem Steps.refl (l : L) (k : κ) : S.Steps l k l k := Relation.ReflTransGen.refl

theorem Steps.single (h : S.step l k l' k') : S.Steps l k l' k' :=
  Relation.ReflTransGen.single h

theorem Steps.trans {l₁ : L} {k₁ : κ} (h : S.Steps l k l₁ k₁) (h' : S.Steps l₁ k₁ l' k') :
    S.Steps l k l' k' :=
  Relation.ReflTransGen.trans h h'

/-- What one segment does to a relation, any number of them does. -/
theorem Steps.induction {P : L → κ → Prop} (h : S.Steps l k l' k') (h0 : P l k)
    (hstep : ∀ {l k l' k'}, P l k → S.step l k l' k' → P l' k') : P l' k' := by
  unfold Steps at h
  generalize ha : (l, k) = a at h
  generalize hb : (l', k') = b at h
  induction h generalizing l' k' with
  | refl =>
      obtain ⟨rfl, rfl⟩ := Prod.mk.inj (ha.trans hb.symm)
      exact h0
  | @tail b' c _ hlast ih =>
      subst hb
      exact hstep (ih rfl) hlast

end Segments

section Follows

variable [InterruptMask μ] (S : Segments σ κ ρ L α) (x : μ)

/-- From the label `l` on the program follows the segments. Under a mask `k` is
the abstract state where the stretch began and `s` the state now; with
interrupts on the state is any the program may run in. The home mask is `x`;
where the program returns `a`, `Q a` holds. -/
def Prog.Follows (Q : β → L → μ → κ → σ → Prop) :
    Prog σ μ ρ ε β → L → μ → κ → σ → Prop
  | .done a, l, m, k, s => Q a l m k s
  | .halt _, _, _, _, _ => True
  | .update f next, l, m, k, s =>
      if InterruptMask.masked m = true then (next s).Follows Q l m k (f s)
      else m = x ∧ ∀ s, S.good (S.abs s) → ∃ l', S.Steps l (S.abs s) l' (S.abs (f s))
        ∧ (next s).Follows Q l' m (S.abs (f s)) (f s)
  | .setMask f next, l, m, k, s =>
      if InterruptMask.masked m = true then
        if InterruptMask.masked (f m) = true then (next m).Follows Q l (f m) k s
        else f m = x ∧ ∃ l', S.Steps l k l' (S.abs s)
          ∧ (next m).Follows Q l' (f m) (S.abs s) s
      else m = x ∧
        if InterruptMask.masked (f m) = true then
          ∀ s, S.good (S.abs s) → ∃ l', S.Steps l (S.abs s) l' (S.abs s)
            ∧ (next m).Follows Q l' (f m) (S.abs s) s
        else f m = x ∧ ∀ k s, (next m).Follows Q l (f m) k s
  | .leave point next, l, m, _, _ =>
      m = x ∧ ∃ l', S.leave point l l' ∧ ∀ k s, next.Follows Q l' m k s

/-- A program that follows the segments to its end, and returns what the label
it ends at says. -/
def Prog.Refines (p : Prog σ μ ρ ε α) (l : L) (m : μ) (k : κ) (s : σ) : Prop :=
  p.Follows S x (fun a l m _ _ => m = x ∧ ∀ k, S.good k → ∃ l', S.Steps l k l' k ∧ S.final l' a)
    l m k s

end Follows

section Rules

variable [InterruptMask μ] {S : Segments σ κ ρ L α} {x m : μ} {l : L} {k : κ} {s : σ}

namespace Prog

/-! ### What `Follows` asks, constructor by constructor -/

@[simp] theorem follows_done {a : β} {Q : β → L → μ → κ → σ → Prop} :
    (.done a : Prog σ μ ρ ε β).Follows S x Q l m k s ↔ Q a l m k s := Iff.rfl

@[simp] theorem follows_halt {e : ε} {Q : β → L → μ → κ → σ → Prop} :
    (.halt e : Prog σ μ ρ ε β).Follows S x Q l m k s := trivial

theorem follows_update_eq {f : σ → σ} {next : σ → Prog σ μ ρ ε β}
    {Q : β → L → μ → κ → σ → Prop} :
    (Prog.update f next).Follows S x Q l m k s
      = if InterruptMask.masked m = true then (next s).Follows S x Q l m k (f s)
        else m = x ∧ ∀ s, S.good (S.abs s) → ∃ l', S.Steps l (S.abs s) l' (S.abs (f s))
          ∧ (next s).Follows S x Q l' m (S.abs (f s)) (f s) := rfl

theorem follows_setMask_eq {f : μ → μ} {next : μ → Prog σ μ ρ ε β}
    {Q : β → L → μ → κ → σ → Prop} :
    (Prog.setMask f next).Follows S x Q l m k s
      = if InterruptMask.masked m = true then
          if InterruptMask.masked (f m) = true then (next m).Follows S x Q l (f m) k s
          else f m = x ∧ ∃ l', S.Steps l k l' (S.abs s)
            ∧ (next m).Follows S x Q l' (f m) (S.abs s) s
        else m = x ∧
          if InterruptMask.masked (f m) = true then
            ∀ s, S.good (S.abs s) → ∃ l', S.Steps l (S.abs s) l' (S.abs s)
              ∧ (next m).Follows S x Q l' (f m) (S.abs s) s
          else f m = x ∧ ∀ k s, (next m).Follows S x Q l (f m) k s := rfl

theorem follows_leave_eq {point : ρ} {next : Prog σ μ ρ ε β} {Q : β → L → μ → κ → σ → Prop} :
    (Prog.leave point next).Follows S x Q l m k s
      = (m = x ∧ ∃ l', S.leave point l l' ∧ ∀ k s, next.Follows S x Q l' m k s) := rfl

@[simp] theorem follows_bind {γ : Type} {p : Prog σ μ ρ ε γ} {f : γ → Prog σ μ ρ ε β}
    {Q : β → L → μ → κ → σ → Prop} :
    (p >>= f).Follows S x Q l m k s
      ↔ p.Follows S x (fun a l m k s => (f a).Follows S x Q l m k s) l m k s := by
  rw [bind_eq]
  induction p generalizing l m k s with
  | done a => rfl
  | halt e => rfl
  | update g next ih => simp only [andThen, follows_update_eq, ih]
  | setMask g next ih => simp only [andThen, follows_setMask_eq, ih]
  | leave point next ih => simp only [andThen, follows_leave_eq, ih]

theorem Follows.mono {p : Prog σ μ ρ ε β} {Q Q' : β → L → μ → κ → σ → Prop}
    (h : p.Follows S x Q l m k s) (hQ : ∀ a l m k s, Q a l m k s → Q' a l m k s) :
    p.Follows S x Q' l m k s := by
  induction p generalizing l m k s with
  | done a => exact hQ _ _ _ _ _ h
  | halt e => trivial
  | update f next ih =>
      rw [follows_update_eq] at h ⊢
      split
      · next hm =>
          rw [if_pos hm] at h
          exact ih _ h
      · next hm =>
          rw [if_neg hm] at h
          refine ⟨h.1, fun s hs => ?_⟩
          obtain ⟨l', hsteps, hnext⟩ := h.2 s hs
          exact ⟨l', hsteps, ih _ hnext⟩
  | setMask f next ih =>
      rw [follows_setMask_eq] at h ⊢
      split
      · next hm =>
          rw [if_pos hm] at h
          split
          · next hfm =>
              rw [if_pos hfm] at h
              exact ih _ h
          · next hfm =>
              rw [if_neg hfm] at h
              obtain ⟨hx, l', hsteps, hnext⟩ := h
              exact ⟨hx, l', hsteps, ih _ hnext⟩
      · next hm =>
          rw [if_neg hm] at h
          refine ⟨h.1, ?_⟩
          split
          · next hfm =>
              have hnext := h.2
              rw [if_pos hfm] at hnext
              intro s hs
              obtain ⟨l', hsteps, hnext⟩ := hnext s hs
              exact ⟨l', hsteps, ih _ hnext⟩
          · next hfm =>
              have hnext := h.2
              rw [if_neg hfm] at hnext
              exact ⟨hnext.1, fun k s => ih _ (hnext.2 k s)⟩
  | leave point next ih =>
      obtain ⟨hx, l', hleave, hnext⟩ := h
      exact ⟨hx, l', hleave, fun k s => ih (hnext k s)⟩

/-- With interrupts on it plays no part what the state is. -/
theorem Refines.of_open {p : Prog σ μ ρ ε α} (h : p.Refines S x l m k s)
    (hm : InterruptMask.masked m = false) (k' : κ) (s' : σ) : p.Refines S x l m k' s' := by
  have hm' : ¬InterruptMask.masked m = true := ne_true_of_eq_false hm
  unfold Refines at h ⊢
  cases p with
  | done a => exact h
  | halt e => trivial
  | update f next =>
      rw [follows_update_eq, if_neg hm'] at h ⊢
      exact h
  | setMask f next =>
      rw [follows_setMask_eq, if_neg hm'] at h ⊢
      exact h
  | leave point next => exact h

/-! ### One step -/

/-- An update or a change of the mask, as a step. -/
def advance : Prog σ μ ρ ε α → μ → σ → Option (Prog σ μ ρ ε α × μ × σ)
  | .update f next, m, s => some (next s, m, f s)
  | .setMask f next, m, s => some (next m, f m, s)
  | _, _, _ => none

/-- A step of a program is a number of segments, none of them while it stays
masked. With interrupts on the abstract state is up to date again. -/
theorem Refines.advance {p p' : Prog σ μ ρ ε α} {m' : μ} {s' : σ} (h : p.Refines S x l m k s)
    (hk : InterruptMask.masked m = false → S.abs s = k ∧ S.good k)
    (hstep : p.advance m s = some (p', m', s')) :
    ∃ l' k', S.Steps l k l' k' ∧ p'.Refines S x l' m' k' s'
      ∧ (InterruptMask.masked m' = false → m' = x ∧ S.abs s' = k') := by
  unfold Refines at h ⊢
  cases p with
  | done a => cases hstep
  | halt e => cases hstep
  | leave point next => cases hstep
  | update f next =>
      simp only [Prog.advance, Option.some.injEq, Prod.mk.injEq] at hstep
      obtain ⟨rfl, rfl, rfl⟩ := hstep
      rw [follows_update_eq] at h
      cases hm : InterruptMask.masked m with
      | true =>
          rw [if_pos hm] at h
          refine ⟨l, k, Segments.Steps.refl l k, h, fun hopen => ?_⟩
          cases hopen
      | false =>
          obtain ⟨rfl, hgood⟩ := hk hm
          rw [if_neg (ne_true_of_eq_false hm)] at h
          obtain ⟨hx, hnext⟩ := h
          obtain ⟨l', hsteps, hnext⟩ := hnext s hgood
          exact ⟨l', _, hsteps, hnext, fun _ => ⟨hx, rfl⟩⟩
  | setMask f next =>
      simp only [Prog.advance, Option.some.injEq, Prod.mk.injEq] at hstep
      obtain ⟨rfl, rfl, rfl⟩ := hstep
      rw [follows_setMask_eq] at h
      cases hm : InterruptMask.masked m with
      | true =>
          rw [if_pos hm] at h
          cases hfm : InterruptMask.masked (f m) with
          | true =>
              rw [if_pos hfm] at h
              refine ⟨l, k, Segments.Steps.refl l k, h, fun hopen => ?_⟩
              cases hopen
          | false =>
              rw [if_neg (ne_true_of_eq_false hfm)] at h
              obtain ⟨hx, l', hsteps, hnext⟩ := h
              exact ⟨l', _, hsteps, hnext, fun _ => ⟨hx, rfl⟩⟩
      | false =>
          obtain ⟨rfl, hgood⟩ := hk hm
          rw [if_neg (ne_true_of_eq_false hm)] at h
          obtain ⟨-, hnext⟩ := h
          cases hfm : InterruptMask.masked (f m) with
          | true =>
              rw [if_pos hfm] at hnext
              obtain ⟨l', hsteps, hnext⟩ := hnext s hgood
              refine ⟨l', _, hsteps, hnext, fun hopen => ?_⟩
              cases hopen
          | false =>
              rw [if_neg (ne_true_of_eq_false hfm)] at hnext
              exact ⟨l, _, Segments.Steps.refl l _, hnext.2 _ _, fun _ => ⟨hnext.1, rfl⟩⟩

theorem Refines.done {a : α} (h : (.done a : Prog σ μ ρ ε α).Refines S x l m k s)
    (hk : S.good k) : m = x ∧ ∃ l', S.Steps l k l' k ∧ S.final l' a :=
  ⟨h.1, h.2 k hk⟩

theorem Refines.leave {point : ρ} {next : Prog σ μ ρ ε α}
    (h : (.leave point next : Prog σ μ ρ ε α).Refines S x l m k s) :
    m = x ∧ ∃ l', S.leave point l l' ∧ ∀ k s, next.Refines S x l' x k s := by
  obtain ⟨rfl, h⟩ := h
  exact ⟨rfl, h⟩

/-! ### Under a mask -/

section Masked

variable {Q : β → L → μ → κ → σ → Prop} (hm : InterruptMask.masked m = true)

include hm

theorem follows_update {f : σ → σ} {next : σ → Prog σ μ ρ ε β} :
    (Prog.update f next).Follows S x Q l m k s ↔ (next s).Follows S x Q l m k (f s) := by
  rw [follows_update_eq, if_pos hm]

theorem follows_modifyGet {f : σ → β × σ} :
    (modifyGet f : Prog σ μ ρ ε β).Follows S x Q l m k s ↔ Q (f s).1 l m k (f s).2 :=
  follows_update hm

theorem follows_modify {f : σ → σ} {Q : Unit → L → μ → κ → σ → Prop} :
    (modify f : Prog σ μ ρ ε Unit).Follows S x Q l m k s ↔ Q () l m k (f s) :=
  follows_update hm

theorem follows_read {Q : σ → L → μ → κ → σ → Prop} :
    (read : Prog σ μ ρ ε σ).Follows S x Q l m k s ↔ Q s l m k s :=
  follows_update hm

theorem follows_changeMask {f : μ → μ} {Q : μ → L → μ → κ → σ → Prop}
    (hfm : InterruptMask.masked (f m) = true) :
    (changeMask f : Prog σ μ ρ ε μ).Follows S x Q l m k s ↔ Q m l (f m) k s := by
  rw [changeMask, follows_setMask_eq, if_pos hm, if_pos hfm]
  rfl

/-- The stretch ends, and its segments are taken. -/
theorem Follows.unmask {f : μ → μ} {Q : μ → L → μ → κ → σ → Prop} {l' : L}
    (hopen : InterruptMask.masked (f m) = false) (hx : f m = x)
    (hsteps : S.Steps l k l' (S.abs s)) (h : Q m l' (f m) (S.abs s) s) :
    (changeMask f : Prog σ μ ρ ε μ).Follows S x Q l m k s := by
  rw [changeMask, follows_setMask_eq, if_pos hm, if_neg (ne_true_of_eq_false hopen)]
  exact ⟨hx, l', hsteps, h⟩

end Masked

/-! ### With interrupts on -/

section Open

variable (hx : InterruptMask.masked x = false)

include hx

theorem Follows.update_open {f : σ → σ} {next : σ → Prog σ μ ρ ε β}
    {Q : β → L → μ → κ → σ → Prop}
    (h : ∀ s, S.good (S.abs s) → ∃ l', S.Steps l (S.abs s) l' (S.abs (f s))
      ∧ (next s).Follows S x Q l' x (S.abs (f s)) (f s)) :
    (Prog.update f next).Follows S x Q l x k s := by
  rw [follows_update_eq, if_neg (ne_true_of_eq_false hx)]
  exact ⟨rfl, h⟩

theorem Follows.mask {f : μ → μ} {Q : μ → L → μ → κ → σ → Prop}
    (hmasked : InterruptMask.masked (f x) = true)
    (h : ∀ s, S.good (S.abs s) → ∃ l', S.Steps l (S.abs s) l' (S.abs s)
      ∧ Q x l' (f x) (S.abs s) s) :
    (changeMask f : Prog σ μ ρ ε μ).Follows S x Q l x k s := by
  rw [changeMask, follows_setMask_eq, if_neg (ne_true_of_eq_false hx), if_pos hmasked]
  exact ⟨rfl, h⟩

theorem Follows.lookMask {Q : μ → L → μ → κ → σ → Prop} (h : ∀ k s, Q x l x k s) :
    (changeMask id : Prog σ μ ρ ε μ).Follows S x Q l x k s := by
  have hopen : ¬InterruptMask.masked x = true := ne_true_of_eq_false hx
  rw [changeMask, follows_setMask_eq, if_neg hopen, id, if_neg hopen]
  exact ⟨rfl, rfl, h⟩

end Open

theorem Follows.leaveAt {point : ρ} {Q : Unit → L → μ → κ → σ → Prop} {l' : L}
    (hleave : S.leave point l l') (h : ∀ k s, Q () l' x k s) :
    (leaveAt point : Prog σ μ ρ ε Unit).Follows S x Q l x k s :=
  ⟨rfl, l', hleave, h⟩

end Prog

end Rules

end Interference
