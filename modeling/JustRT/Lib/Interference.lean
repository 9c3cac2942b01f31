import Mathlib.Logic.Function.Basic

/-!
# Programs under interference

A program on one core shares its state with interrupt handlers and with the
programs the core switches to. While its mask does not keep them away, and
wherever it leaves the core of its own accord, something else may come in
between two of its steps and leaves an arbitrary shared state behind.

`Prog.Safe` says of a program that it updates what is guarded only while it is
masked, leaves the core only at its home mask, and is at that mask whenever
interrupts can come. It is defined by recursion on the program, with a rule
for `bind`, and it holds along every path (`Config.Safe.path`).

A path takes for granted that what comes in between leaves the mask as it
found it. `System` is where that comes from: tasks and nested handlers on one
core, each of them safe at the same home mask. Every task of a system follows
a path of its own (`System.Run.path`).
-/

namespace Interference

/-- Does a mask keep interrupts away? -/
class InterruptMask (μ : Type) where
  masked : μ → Bool

/-- A program over a shared state `σ` and a mask `μ`. It returns an `α`, halts
with an `ε`, or takes one more step; an update or a change of the mask goes on
with what was there before. `ρ` is where it may leave the core. -/
inductive Prog (σ μ ρ ε α : Type) : Type where
  | done (a : α)
  | halt (e : ε)
  | update (f : σ → σ) (next : σ → Prog σ μ ρ ε α)
  | setMask (f : μ → μ) (next : μ → Prog σ μ ρ ε α)
  | leave (point : ρ) (next : Prog σ μ ρ ε α)

variable {σ μ ρ ε α β π ι : Type}

/-! ## Programs -/

namespace Prog

def andThen (f : α → Prog σ μ ρ ε β) : Prog σ μ ρ ε α → Prog σ μ ρ ε β
  | .done a => f a
  | .halt e => .halt e
  | .update g next => .update g fun s => (next s).andThen f
  | .setMask g next => .setMask g fun m => (next m).andThen f
  | .leave point next => .leave point (next.andThen f)

instance : Monad (Prog σ μ ρ ε) where
  pure := .done
  bind p f := p.andThen f

def read : Prog σ μ ρ ε σ := .update id .done

def modify (f : σ → σ) : Prog σ μ ρ ε Unit := .update f fun _ => .done ()

def modifyGet (f : σ → β × σ) : Prog σ μ ρ ε β :=
  .update (fun s => (f s).2) fun s => .done (f s).1

/-- Update the shared state, or halt. -/
def attempt (f : σ → Except ε (β × σ)) : Prog σ μ ρ ε β :=
  .update (fun s => match f s with | .ok r => r.2 | .error _ => s)
    fun s => match f s with | .ok r => .done r.1 | .error e => .halt e

/-- Change the mask; the old one is returned. -/
def changeMask (f : μ → μ) : Prog σ μ ρ ε μ := .setMask f .done

def leaveAt (point : ρ) : Prog σ μ ρ ε Unit := .leave point (.done ())

/-- Run `p` from `m` and `s` until it returns, halts or leaves the core, with
nothing in between. -/
def alone : Prog σ μ ρ ε α → μ → σ → Prog σ μ ρ ε α × μ × σ
  | .done a, m, s => (.done a, m, s)
  | .halt e, m, s => (.halt e, m, s)
  | .update f next, m, s => (next s).alone m (f s)
  | .setMask f next, m, s => (next m).alone (f m) s
  | .leave point next, m, s => (.leave point next, m, s)

def resume (f : α → Prog σ μ ρ ε β) :
    Prog σ μ ρ ε α × μ × σ → Prog σ μ ρ ε β × μ × σ
  | (.done a, m, s) => (f a).alone m s
  | (p, m, s) => (p.andThen f, m, s)

@[simp] theorem pure_eq (a : α) : (pure a : Prog σ μ ρ ε α) = .done a := rfl

theorem bind_eq (p : Prog σ μ ρ ε α) (f : α → Prog σ μ ρ ε β) : p >>= f = p.andThen f := rfl

theorem andThen_assoc {γ : Type} (p : Prog σ μ ρ ε α) (f : α → Prog σ μ ρ ε β)
    (g : β → Prog σ μ ρ ε γ) : p >>= f >>= g = p >>= fun a => f a >>= g := by
  simp only [bind_eq]
  induction p with
  | done a => rfl
  | halt e => rfl
  | update h next ih => exact congrArg (Prog.update h) (funext ih)
  | setMask h next ih => exact congrArg (Prog.setMask h) (funext ih)
  | leave point next ih => exact congrArg (Prog.leave point) ih

@[simp] theorem alone_bind (p : Prog σ μ ρ ε α) (f : α → Prog σ μ ρ ε β) (m : μ) (s : σ) :
    (p >>= f).alone m s = resume f (p.alone m s) := by
  rw [bind_eq]
  induction p generalizing m s with
  | done a => rfl
  | halt e => rfl
  | update g next ih => exact ih s m (g s)
  | setMask g next ih => exact ih m (g m) s
  | leave point next ih => rfl

@[simp] theorem resume_done (f : α → Prog σ μ ρ ε β) (a : α) (m : μ) (s : σ) :
    resume f (.done a, m, s) = (f a).alone m s := rfl

@[simp] theorem resume_leave (f : α → Prog σ μ ρ ε β) (point : ρ) (next : Prog σ μ ρ ε α)
    (m : μ) (s : σ) : resume f (.leave point next, m, s) = (.leave point (next >>= f), m, s) := rfl

@[simp] theorem resume_halt (f : α → Prog σ μ ρ ε β) (e : ε) (m : μ) (s : σ) :
    resume f (.halt e, m, s) = (.halt e, m, s) := rfl

@[simp] theorem alone_done (a : α) (m : μ) (s : σ) :
    (.done a : Prog σ μ ρ ε α).alone m s = (.done a, m, s) := rfl

@[simp] theorem alone_halt (e : ε) (m : μ) (s : σ) :
    (.halt e : Prog σ μ ρ ε α).alone m s = (.halt e, m, s) := rfl

@[simp] theorem alone_leaveAt (point : ρ) (m : μ) (s : σ) :
    (leaveAt point : Prog σ μ ρ ε Unit).alone m s = (.leave point (.done ()), m, s) := rfl

@[simp] theorem done_bind (a : α) (f : α → Prog σ μ ρ ε β) : (.done a >>= f) = f a := rfl

end Prog

/-! ## Paths -/

/-- What a program did to the shared state, or where it left the core, and
under which mask. -/
inductive Event (σ μ ρ : Type) where
  | update (mask : μ) (before after : σ)
  | leave (point : ρ) (mask : μ)

/-- What is left of a program, the mask, and the shared state. -/
structure Config (σ μ ρ ε α : Type) where
  prog : Prog σ μ ρ ε α
  mask : μ
  shared : σ

/-- One step of a program. -/
inductive Step : Config σ μ ρ ε α → List (Event σ μ ρ) → Config σ μ ρ ε α → Prop where
  | update (f : σ → σ) (next : σ → Prog σ μ ρ ε α) (m : μ) (s : σ) :
      Step ⟨.update f next, m, s⟩ [.update m s (f s)] ⟨next s, m, f s⟩
  | setMask (f : μ → μ) (next : μ → Prog σ μ ρ ε α) (m : μ) (s : σ) :
      Step ⟨.setMask f next, m, s⟩ [] ⟨next m, f m, s⟩
  | leave (point : ρ) (next : Prog σ μ ρ ε α) (m : μ) (s : σ) :
      Step ⟨.leave point next, m, s⟩ [.leave point m] ⟨next, m, s⟩

section Paths

variable [InterruptMask μ]

/-- Something else can come in between: interrupts are on, or the program is
about to leave the core. -/
def Config.Open (c : Config σ μ ρ ε α) : Prop :=
  InterruptMask.masked c.mask = false ∨ ∃ point next, c.prog = .leave point next

/-- A path of a program, with what it did. Meanwhile the shared state may
change wherever the program is open. -/
inductive Path (c : Config σ μ ρ ε α) : List (Event σ μ ρ) → Config σ μ ρ ε α → Prop where
  | nil : Path c [] c
  | step {es es' : List (Event σ μ ρ)} {c₁ c₂ : Config σ μ ρ ε α} :
      Path c es c₁ → Step c₁ es' c₂ → Path c (es ++ es') c₂
  | meanwhile {es : List (Event σ μ ρ)} {c₁ : Config σ μ ρ ε α} (s : σ) :
      Path c es c₁ → c₁.Open → Path c es { c₁ with shared := s }

end Paths

theorem Path.trans [InterruptMask μ] {c c₁ c₂ : Config σ μ ρ ε α}
    {es es' : List (Event σ μ ρ)} (h : Path c es c₁) (h' : Path c₁ es' c₂) :
    Path c (es ++ es') c₂ := by
  induction h' with
  | nil => rwa [List.append_nil]
  | step _ hstep ih => exact List.append_assoc es _ _ ▸ ih.step hstep
  | meanwhile s _ hopen ih => exact ih.meanwhile s hopen

theorem Prog.alone_path [InterruptMask μ] (p : Prog σ μ ρ ε α) (m : μ) (s : σ) :
    ∃ es, Path ⟨p, m, s⟩ es ⟨(p.alone m s).1, (p.alone m s).2.1, (p.alone m s).2.2⟩ := by
  induction p generalizing m s with
  | done a => exact ⟨[], .nil⟩
  | halt e => exact ⟨[], .nil⟩
  | update f next ih =>
      obtain ⟨es, hes⟩ := ih s m (f s)
      exact ⟨_, (Path.step .nil (.update f next m s)).trans hes⟩
  | setMask f next ih =>
      obtain ⟨es, hes⟩ := ih m (f m) s
      exact ⟨_, (Path.step .nil (.setMask f next m s)).trans hes⟩
  | leave point next ih => exact ⟨[], .nil⟩

/-- A program that leaves the core may find everything as it left it. -/
theorem Prog.alone_leave_path [InterruptMask μ] {p next : Prog σ μ ρ ε α} {point : ρ}
    {m m' : μ} {s s' : σ} (h : p.alone m s = (.leave point next, m', s')) :
    ∃ es, Path ⟨p, m, s⟩ es
      ⟨(next.alone m' s').1, (next.alone m' s').2.1, (next.alone m' s').2.2⟩ := by
  obtain ⟨es, hes⟩ := p.alone_path m s
  obtain ⟨es', hes'⟩ := next.alone_path m' s'
  rw [h] at hes
  exact ⟨_, (hes.step (.leave point next m' s')).trans hes'⟩

/-! ## Safe programs -/

section Safe

variable [InterruptMask μ] (guarded : σ → π) (home : μ → Prop)

/-- The guarded part of the state is updated under a mask only, and the core
is left at home. -/
def Event.Good : Event σ μ ρ → Prop
  | .update mask before after =>
      InterruptMask.masked mask = true ∨ guarded after = guarded before
  | .leave _ mask => home mask

/-- From the mask `x` on all a program does is good, it is at home whenever it
lets interrupts in, and where it returns `a` the mask is a `y` with `Q a y`. -/
def Prog.Safe (Q : α → μ → Prop) : Prog σ μ ρ ε α → μ → Prop
  | .done a, x => Q a x
  | .halt _, _ => True
  | .update f next, x =>
      (InterruptMask.masked x = true ∨ ∀ s, guarded (f s) = guarded s)
        ∧ ∀ s, (next s).Safe Q x
  | .setMask f next, x =>
      (InterruptMask.masked (f x) = true ∨ home (f x)) ∧ (next x).Safe Q (f x)
  | .leave _ next, x => home x ∧ next.Safe Q x

/-- What is left of a program is safe, and it is at home if interrupts are
on. -/
def Config.Safe (Q : α → μ → Prop) (c : Config σ μ ρ ε α) : Prop :=
  (InterruptMask.masked c.mask = true ∨ home c.mask) ∧ c.prog.Safe guarded home Q c.mask

end Safe

section Rules

variable [InterruptMask μ] {guarded : σ → π} {home : μ → Prop} {x : μ}

namespace Prog

@[simp] theorem safe_bind {p : Prog σ μ ρ ε α} {f : α → Prog σ μ ρ ε β} {Q : β → μ → Prop} :
    (p >>= f).Safe guarded home Q x
      ↔ p.Safe guarded home (fun a y => (f a).Safe guarded home Q y) x := by
  rw [bind_eq]
  induction p generalizing x with
  | done a => rfl
  | halt e => rfl
  | update g next ih => exact and_congr_right fun _ => forall_congr' fun s => ih s
  | setMask g next ih => exact and_congr_right fun _ => ih x
  | leave point next ih => exact and_congr_right fun _ => ih

theorem Safe.mono {p : Prog σ μ ρ ε α} {Q Q' : α → μ → Prop} (h : p.Safe guarded home Q x)
    (hQ : ∀ a y, Q a y → Q' a y) : p.Safe guarded home Q' x := by
  induction p generalizing x with
  | done a => exact hQ a x h
  | halt e => trivial
  | update g next ih => exact ⟨h.1, fun s => ih s (h.2 s)⟩
  | setMask g next ih => exact ⟨h.1, ih x h.2⟩
  | leave point next ih => exact ⟨h.1, ih h.2⟩

@[simp] theorem safe_done {a : α} {Q : α → μ → Prop} :
    (.done a : Prog σ μ ρ ε α).Safe guarded home Q x ↔ Q a x := Iff.rfl

@[simp] theorem safe_halt {e : ε} {Q : α → μ → Prop} :
    (.halt e : Prog σ μ ρ ε α).Safe guarded home Q x := trivial

@[simp] theorem safe_read {Q : σ → μ → Prop} :
    (read : Prog σ μ ρ ε σ).Safe guarded home Q x ↔ ∀ s, Q s x :=
  and_iff_right (.inr fun _ => rfl)

theorem Safe.modify {f : σ → σ} {Q : Unit → μ → Prop}
    (hgood : InterruptMask.masked x = true ∨ ∀ s, guarded (f s) = guarded s) (h : Q () x) :
    (modify f : Prog σ μ ρ ε Unit).Safe guarded home Q x :=
  ⟨hgood, fun _ => h⟩

theorem Safe.modifyGet {f : σ → β × σ} {Q : β → μ → Prop}
    (hgood : InterruptMask.masked x = true ∨ ∀ s, guarded (f s).2 = guarded s)
    (h : ∀ b, Q b x) : (modifyGet f : Prog σ μ ρ ε β).Safe guarded home Q x :=
  ⟨hgood, fun _ => h _⟩

/-- An update that may halt is made under a mask. -/
theorem Safe.attempt {f : σ → Except ε (β × σ)} {Q : β → μ → Prop}
    (hmasked : InterruptMask.masked x = true) (h : ∀ b, Q b x) :
    (attempt f : Prog σ μ ρ ε β).Safe guarded home Q x := by
  refine ⟨.inl hmasked, fun s => ?_⟩
  show Prog.Safe guarded home Q (match f s with | .ok r => .done r.1 | .error e => .halt e) x
  cases f s with
  | ok r => exact h r.1
  | error e => trivial

theorem Safe.changeMask {f : μ → μ} {Q : μ → μ → Prop}
    (hhome : InterruptMask.masked (f x) = true ∨ home (f x)) (h : Q x (f x)) :
    (changeMask f : Prog σ μ ρ ε μ).Safe guarded home Q x :=
  ⟨hhome, h⟩

theorem Safe.leaveAt {point : ρ} {Q : Unit → μ → Prop} (hhome : home x) (h : Q () x) :
    (leaveAt point : Prog σ μ ρ ε Unit).Safe guarded home Q x :=
  ⟨hhome, h⟩

end Prog

variable {Q : α → μ → Prop} {c c' : Config σ μ ρ ε α} {es : List (Event σ μ ρ)}

/-! ## Safety along a path -/

theorem Config.Safe.step (h : c.Safe guarded home Q) (hstep : Step c es c') :
    (∀ e ∈ es, e.Good guarded home) ∧ c'.Safe guarded home Q := by
  obtain ⟨hopen, hsafe⟩ := h
  cases hstep with
  | update f next m s =>
      refine ⟨fun e he => ?_, hopen, hsafe.2 s⟩
      rw [List.mem_singleton.mp he]
      exact hsafe.1.imp_right fun hkept => hkept s
  | setMask f next m s => exact ⟨fun e he => absurd he List.not_mem_nil, hsafe.1, hsafe.2⟩
  | leave point next m s =>
      refine ⟨fun e he => ?_, hopen, hsafe.2⟩
      rw [List.mem_singleton.mp he]
      exact hsafe.1

/-- All a safe program does is good, and what is left of it is safe. -/
theorem Config.Safe.path (h : c.Safe guarded home Q) (hpath : Path c es c') :
    (∀ e ∈ es, e.Good guarded home) ∧ c'.Safe guarded home Q := by
  induction hpath with
  | nil => exact ⟨fun e he => absurd he List.not_mem_nil, h⟩
  | step _ hstep ih =>
      obtain ⟨hgood, hsafe⟩ := ih
      obtain ⟨hgood', hsafe'⟩ := hsafe.step hstep
      exact ⟨fun e he => (List.mem_append.mp he).elim (hgood e) (hgood' e), hsafe'⟩
  | meanwhile s _ _ ih => exact ⟨ih.1, ih.2⟩

end Rules

/-! ## Systems -/

/-- Programs on one core, of which one runs: tasks, and every activation of an
interrupt handler. -/
structure System (ι σ μ ρ ε α : Type) where
  mask : μ
  shared : σ
  progs : ι → Prog σ μ ρ ε α
  current : ι

namespace System

variable [InterruptMask μ] [DecidableEq ι]

/-- The running program takes a step, or, while interrupts are on, the core
goes on with any other program. -/
inductive Step (S : System ι σ μ ρ ε α) : System ι σ μ ρ ε α → Prop where
  | own {es : List (Event σ μ ρ)} {c : Config σ μ ρ ε α} :
      Interference.Step ⟨S.progs S.current, S.mask, S.shared⟩ es c →
      Step S { S with
        progs := Function.update S.progs S.current c.prog, mask := c.mask, shared := c.shared }
  | switch (i : ι) : InterruptMask.masked S.mask = false → Step S { S with current := i }

/-- A run of a system. -/
inductive Run (S : System ι σ μ ρ ε α) : System ι σ μ ρ ε α → Prop where
  | nil : Run S S
  | snoc {S₁ S₂ : System ι σ μ ρ ε α} : Run S S₁ → S₁.Step S₂ → Run S S₂

/-- Where program `i` stands: at the core's mask if it runs, and at the home
mask `x` if it does not. -/
def config (S : System ι σ μ ρ ε α) (x : μ) (i : ι) : Config σ μ ρ ε α :=
  ⟨S.progs i, if i = S.current then S.mask else x, S.shared⟩

/-- Every program is safe from where it stands, and is back at the home mask
where it returns. -/
def Safe (guarded : σ → π) (x : μ) (S : System ι σ μ ρ ε α) : Prop :=
  ∀ i, (S.config x i).Safe guarded (· = x) fun _ y => y = x

variable {S S' : System ι σ μ ρ ε α} {guarded : σ → π} {x : μ}

/-- While interrupts are on, a safe system is at home. -/
theorem Safe.mask_eq (h : S.Safe guarded x) (hopen : InterruptMask.masked S.mask = false) :
    S.mask = x := by
  have hhome := (h S.current).1
  rw [config, if_pos rfl] at hhome
  exact hhome.resolve_left (ne_true_of_eq_false hopen)

omit [InterruptMask μ] in
/-- A switch leaves every program where it stands. -/
theorem config_switch (h : S.mask = x) (i j : ι) :
    ({ S with current := j } : System ι σ μ ρ ε α).config x i = S.config x i := by
  simp [config, h]

/-- Each program of a safe system follows a path of its own. -/
theorem Safe.step (h : S.Safe guarded x) (hx : InterruptMask.masked x = false)
    (hstep : S.Step S') :
    S'.Safe guarded x ∧ ∀ i, ∃ es, Path (S.config x i) es (S'.config x i) := by
  suffices hpath : ∀ i, ∃ es, Path (S.config x i) es (S'.config x i) by
    refine ⟨fun i => ?_, hpath⟩
    obtain ⟨es, hes⟩ := hpath i
    exact ((h i).path hes).2
  intro i
  cases hstep with
  | switch j hopen =>
      have hmask := h.mask_eq hopen
      exact ⟨[], config_switch hmask i j ▸ .nil⟩
  | @own es c hown =>
      by_cases hi : i = S.current
      · subst hi
        refine ⟨es, ?_⟩
        have hstep : Interference.Step (S.config x S.current) es c := by
          rw [config, if_pos rfl]
          exact hown
        have hpath : Path (S.config x S.current) ([] ++ es) c := .step .nil hstep
        simpa [config] using hpath
      · refine ⟨[], ?_⟩
        have hopen : (S.config x i).Open := by
          refine .inl ?_
          rw [config, if_neg hi]
          exact hx
        have hpath : Path (S.config x i) [] { S.config x i with shared := c.shared } :=
          .meanwhile c.shared .nil hopen
        simpa [config, hi] using hpath

/-- Along a run of a safe system each program follows a path of its own: what
comes in between leaves the mask as the program left it. -/
theorem Run.path (hrun : S.Run S') (h : S.Safe guarded x)
    (hx : InterruptMask.masked x = false) :
    S'.Safe guarded x ∧ ∀ i, ∃ es, Path (S.config x i) es (S'.config x i) := by
  induction hrun with
  | nil => exact ⟨h, fun i => ⟨[], .nil⟩⟩
  | snoc _ hstep ih =>
      obtain ⟨hsafe, hpaths⟩ := ih
      obtain ⟨hsafe', hpaths'⟩ := hsafe.step hx hstep
      refine ⟨hsafe', fun i => ?_⟩
      obtain ⟨es, hes⟩ := hpaths i
      obtain ⟨es', hes'⟩ := hpaths' i
      exact ⟨es ++ es', hes.trans hes'⟩

end System

end Interference
