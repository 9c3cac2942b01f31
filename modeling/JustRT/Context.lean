import JustRT.Isolation
import JustRT.Lib.Words

/-!
# Saving and restoring a task's registers

The machine around the kernel: the registers of the running task, the save
sequence of `PendSV_Handler`, and `arch_restore_task_context`, which is
written elsewhere and has to undo it. Between two context switches the
running task does with its registers and its own stack what it likes. A
task that is resumed finds the registers it was last switched out with,
however the frames of the tasks in between looked: its saved frame lies in
its own stack, which nobody else writes.

Frames have two forms, with and without the floating-point registers, and
the `EXC_RETURN` saved in the frame says which; so the save and the restore
agree on the form as long as that one word survives. The invariant `Saved`
says of every task that is off the processor and has been on it that the
frame at the stack pointer the kernel keeps holds the registers it left with.
-/

namespace JustRT

/-! ## Registers -/

/-- The registers the handler takes care of: `core` is `r4` to `r11`, `fp`
is `s16` to `s31`, and `excReturn` the `EXC_RETURN` value in `lr`. -/
structure Registers where
  core : Fin 8 → UInt32
  fp : Fin 16 → UInt32
  psp : Ptr
  excReturn : UInt32
  control : UInt32

/-- The hardware frame is an extended one. `fpu` is
`JRT_ARCH_FPU_CONTEXT`; without it there are basic frames only. -/
def extended (fpu : Bool) (excReturn : UInt32) : Bool := fpu && excReturn &&& 0x10 == 0

/-- `stmdb r0!`: store below `r0`, the first register lowest. -/
def stmdb {n : Nat} (s : Ptr × Memory) (registers : Fin n → UInt32) : Ptr × Memory :=
  let r0 := s.1 - 4 * UInt32.ofNat n
  (r0, Words.store s.2 r0 registers)

def ldmia (n : Nat) (memory : Memory) (r0 : Ptr) : (Fin n → UInt32) × Ptr :=
  (Words.load n memory r0, r0 + 4 * UInt32.ofNat n)

/-- The save sequence of `PendSV_Handler`: `r0` and the memory when it
calls `pendsv_switch`. -/
def pendsvPush (fpu : Bool) (r : Registers) (memory : Memory) : Ptr × Memory :=
  let s := (r.psp, memory)
  let s := if extended fpu r.excReturn then stmdb s r.fp else s
  let s := stmdb s r.core
  stmdb s fun _ : Fin 1 => r.excReturn

def archRestoreTaskContext (fpu : Bool) (memory : Memory) (r0 : Ptr) (r : Registers) :
    Registers :=
  let r2 := memory r0
  let core := ldmia 8 memory (r0 + 4)
  let fp := if extended fpu r2 then ldmia 16 memory core.2 else (r.fp, core.2)
  { r with
    core := core.1
    fp := fp.1
    psp := fp.2
    excReturn := r2 }

def taskCurrentControl (k : Kernel) : UInt32 :=
  if (k.tasks k.currentTask).flags &&& jrtTaskFlagUnprivileged ≠ 0 then 3 else 2

/-- What the handlers do behind the restore: `CONTROL.FPCA` goes with an
extended frame. -/
def resumeContext (fpu : Bool) (k : Kernel) (sp : Ptr) (r : Registers) : Registers :=
  let r := archRestoreTaskContext fpu k.memory sp r
  let r1 := taskCurrentControl k
  { r with control := if extended fpu r.excReturn then r1 ||| 4 else r1 }

def pendsvHandler (fpu : Bool) (r : Registers) (k : Kernel) : Exec (Registers × Kernel) := do
  let (r0, memory) := pendsvPush fpu r k.memory
  let (sp, k) ← pendsvSwitch { k with memory } r0
  return (resumeContext fpu k sp r, k)

/-- What a switched-out task must find again. -/
structure Preserved (fpu : Bool) (before after : Registers) : Prop where
  core : after.core = before.core
  psp : after.psp = before.psp
  excReturn : after.excReturn = before.excReturn
  fp : extended fpu before.excReturn = true → after.fp = before.fp

def contextSize (fpu : Bool) (excReturn : UInt32) : Nat :=
  if extended fpu excReturn then 100 else 36

/-! ## One save and its restore -/

section Stack

variable {n : Nat} {s : Ptr × Memory} {registers : Fin n → UInt32}

theorem stmdb_r0 (hsize : 4 * n ≤ s.1.toNat) : (stmdb s registers).1.toNat = s.1.toNat - 4 * n := by
  have hlt := s.1.toNat_lt
  have hn : (4 * UInt32.ofNat n).toNat = 4 * n := by
    rw [UInt32.toNat_mul, UInt32.toNat_ofNat']
    change 4 * (n % 2 ^ 32) % 2 ^ 32 = 4 * n
    omega
  rw [stmdb, UInt32.toNat_sub_of_le, hn]
  rw [UInt32.le_iff_toNat_le, hn]
  exact hsize

/-- A store below `r0` changes nothing from `r0` on, and nothing below. -/
theorem stmdb_of_not_mem (hsize : 4 * n ≤ s.1.toNat) {a : Ptr}
    (ha : a.toNat < s.1.toNat - 4 * n ∨ s.1.toNat ≤ a.toNat) :
    (stmdb s registers).2 a = s.2 a := by
  have hlt := s.1.toNat_lt
  have hr0 : (stmdb s registers).1.toNat = s.1.toNat - 4 * n := stmdb_r0 hsize
  refine Words.store_of_not_mem ?_ registers ?_
  · change (stmdb s registers).1.toNat + 4 * n ≤ 2 ^ 32
    omega
  · rintro ⟨hle, hgt⟩
    change (stmdb s registers).1.toNat ≤ a.toNat at hle
    change a.toNat < (stmdb s registers).1.toNat + 4 * n at hgt
    omega

theorem stmdb_add (s : Ptr × Memory) (registers : Fin n → UInt32) :
    (stmdb s registers).1 + 4 * UInt32.ofNat n = s.1 := UInt32.sub_add_cancel _ _

/-- What `stmdb` has stored `ldmia` loads, if the words are still there. -/
theorem ldmia_stmdb (hsize : 4 * n ≤ s.1.toNat) {memory : Memory}
    (h : ∀ a : Ptr, s.1.toNat - 4 * n ≤ a.toNat → a.toNat < s.1.toNat →
      memory a = (stmdb s registers).2 a) :
    ldmia n memory (stmdb s registers).1 = (registers, s.1) := by
  have hlt := s.1.toNat_lt
  have hr0 : (stmdb s registers).1.toNat = s.1.toNat - 4 * n := stmdb_r0 hsize
  have hload : Words.load n memory (stmdb s registers).1 = registers := by
    rw [Words.load_congr (m := (stmdb s registers).2) (by omega)]
    · exact Words.load_store (by omega) registers
    · rintro a ⟨hle, hgt⟩
      exact h a (by omega) (by omega)
  rw [ldmia, hload, stmdb_add]

end Stack

/-- The part of a save every frame has, on a stack from `s.1` down. -/
theorem push_core (r : Registers) {s : Ptr × Memory} (hsize : 36 ≤ s.1.toNat) :
    let pushed := stmdb (stmdb s r.core) fun _ : Fin 1 => r.excReturn
    pushed.1.toNat + 36 = s.1.toNat
      ∧ (∀ a : Ptr, a.toNat < pushed.1.toNat ∨ s.1.toNat ≤ a.toNat → pushed.2 a = s.2 a)
      ∧ pushed.2 pushed.1 = r.excReturn
      ∧ ldmia 8 pushed.2 (pushed.1 + 4) = (r.core, s.1) := by
  intro pushed
  have hcore : (stmdb s r.core).1.toNat = s.1.toNat - 32 := stmdb_r0 (by omega)
  have hlow : pushed.1.toNat = (stmdb s r.core).1.toNat - 4 := stmdb_r0 (by omega)
  refine ⟨by omega, ?_, Words.store_self (n := 0) fun _ => r.excReturn, ?_⟩
  · intro a ha
    rw [stmdb_of_not_mem (by omega) (by omega), stmdb_of_not_mem (by omega) (by omega)]
  · have hback : pushed.1 + 4 = (stmdb s r.core).1 :=
      stmdb_add (stmdb s r.core) fun _ : Fin 1 => r.excReturn
    rw [hback]
    refine ldmia_stmdb (by omega) fun a hle _ => ?_
    exact stmdb_of_not_mem (by omega) (Or.inr (by omega))

/-- What the save sequence leaves: `r0` below the frame, the memory outside
the frame untouched, and a frame the restore reads the registers from. -/
theorem pendsvPush_spec (fpu : Bool) (r : Registers) (memory : Memory)
    (hsize : contextSize fpu r.excReturn ≤ r.psp.toNat) :
    (pendsvPush fpu r memory).1.toNat + contextSize fpu r.excReturn = r.psp.toNat
      ∧ (∀ a : Ptr, a.toNat < (pendsvPush fpu r memory).1.toNat ∨ r.psp.toNat ≤ a.toNat →
          (pendsvPush fpu r memory).2 a = memory a)
      ∧ ∀ r', Preserved fpu r
          (archRestoreTaskContext fpu (pendsvPush fpu r memory).2
            (pendsvPush fpu r memory).1 r') := by
  cases hext : extended fpu r.excReturn with
  | false =>
      rw [contextSize, hext] at hsize ⊢
      have hpush : pendsvPush fpu r memory
          = stmdb (stmdb (r.psp, memory) r.core) fun _ : Fin 1 => r.excReturn := by
        simp only [pendsvPush, hext]
        rfl
      obtain ⟨hlow, hother, hexc, hcore⟩ := push_core r (s := (r.psp, memory)) hsize
      rw [← hpush] at hlow hother hexc hcore
      refine ⟨hlow, hother, fun r' => ?_⟩
      constructor
      · simp only [archRestoreTaskContext, hcore]
      · simp only [archRestoreTaskContext, hcore, hexc, hext]
        rfl
      · exact hexc
      · intro h
        rw [hext] at h
        cases h
  | true =>
      rw [contextSize, hext, if_pos rfl] at hsize ⊢
      have hpush : pendsvPush fpu r memory
          = stmdb (stmdb (stmdb (r.psp, memory) r.fp) r.core) fun _ : Fin 1 => r.excReturn := by
        simp only [pendsvPush, hext]
        rfl
      have hfp : (stmdb (r.psp, memory) r.fp).1.toNat = r.psp.toNat - 64 :=
        stmdb_r0 (s := (r.psp, memory)) (Nat.le_trans (by decide) hsize)
      obtain ⟨hlow, hother, hexc, hcore⟩ :=
        push_core r (s := stmdb (r.psp, memory) r.fp) (by omega)
      rw [← hpush] at hlow hother hexc hcore
      have hload : ldmia 16 (pendsvPush fpu r memory).2 (stmdb (r.psp, memory) r.fp).1
          = (r.fp, r.psp) := by
        refine ldmia_stmdb (s := (r.psp, memory)) (Nat.le_trans (by decide) hsize)
          fun a hle _ => hother a (Or.inr ?_)
        rw [hfp]
        exact hle
      refine ⟨by omega, ?_, fun r' => ?_⟩
      · intro a ha
        rw [hother a (by omega)]
        refine stmdb_of_not_mem (s := (r.psp, memory)) (Nat.le_trans (by decide) hsize) ?_
        change a.toNat < r.psp.toNat - 64 ∨ r.psp.toNat ≤ a.toNat
        omega
      · constructor
        · simp only [archRestoreTaskContext, hcore]
        · simp only [archRestoreTaskContext, hcore, hexc, hext, if_pos, hload]
        · exact hexc
        · intro _
          simp only [archRestoreTaskContext, hcore, hexc, hext, if_pos, hload]

theorem ldmia_congr {n : Nat} {memory memory' : Memory} {r0 : Ptr}
    (hend : r0.toNat + 4 * n ≤ 2 ^ 32)
    (h : ∀ a : Ptr, r0.toNat ≤ a.toNat → a.toNat < r0.toNat + 4 * n → memory' a = memory a) :
    ldmia n memory' r0 = ldmia n memory r0 := by
  rw [ldmia, ldmia, Words.load_congr hend fun a ha => h a ha.1 ha.2]

theorem archRestoreTaskContext_congr (fpu : Bool) {memory memory' : Memory} {r0 : Ptr}
    (r : Registers) (hend : r0.toNat + contextSize fpu (memory r0) < 2 ^ 32)
    (h : ∀ a : Ptr, r0.toNat ≤ a.toNat →
      a.toNat < r0.toNat + contextSize fpu (memory r0) → memory' a = memory a) :
    archRestoreTaskContext fpu memory' r0 r = archRestoreTaskContext fpu memory r0 r := by
  have hsize : 36 ≤ contextSize fpu (memory r0) := by
    unfold contextSize
    split <;> decide
  have hexc : memory' r0 = memory r0 := h r0 (Nat.le_refl _) (by omega)
  have hfirst : (r0 + 4).toNat = r0.toNat + 4 := by
    rw [UInt32.toNat_add]
    exact Nat.mod_eq_of_lt (show r0.toNat + 4 < 2 ^ 32 by omega)
  have hsecond : (ldmia 8 memory (r0 + 4)).2.toNat = r0.toNat + 36 := by
    change (r0 + 4 + 32).toNat = r0.toNat + 36
    rw [UInt32.toNat_add, hfirst]
    exact Nat.mod_eq_of_lt (show r0.toNat + 4 + 32 < 2 ^ 32 by omega)
  have hcore : ldmia 8 memory' (r0 + 4) = ldmia 8 memory (r0 + 4) :=
    ldmia_congr (by omega) fun a hle hlt => h a (by omega) (by omega)
  simp only [archRestoreTaskContext, hexc, hcore]
  cases hext : extended fpu (memory r0) with
  | false => rfl
  | true =>
      rw [contextSize, hext, if_pos rfl] at hend h
      rw [ldmia_congr (n := 16) (by omega) fun a hle hlt => h a (by omega) (by omega)]

/-! ## The machine -/

/-- The kernel, and the registers of the running task. The registers of the
other tasks are nowhere but in memory, on their stacks. -/
structure Machine where
  cfg : Cfg
  regs : Registers

def Machine.current (m : Machine) : Nat := m.cfg.kernel.currentTask

def Kernel.stackBytes (k : Kernel) (i : Nat) : Set Nat :=
  Set.Ico (k.tasks i).stackBottom.toNat (k.tasks i).stackTop.toNat

/-- What the handler saves stays inside the stack of the running task. -/
def Machine.SavesInside (fpu : Bool) (m : Machine) : Prop :=
  (m.cfg.kernel.tasks m.current).stackBottom.toNat + contextSize fpu m.regs.excReturn
      ≤ m.regs.psp.toNat
    ∧ m.regs.psp.toNat ≤ (m.cfg.kernel.tasks m.current).stackTop.toNat

/-- `thread` is what the running task does on its own; `system` a step of
the kernel that does not switch. -/
inductive MachineEvent where
  | start
  | thread
  | system (action : Action)
  | pendsv

/-- The steps of the kernel that switch no context and write no stack. -/
def Action.isSystem : Action → Bool
  | .call _ | .proceed _ | .tick | .isr _ | .cycles _ => true
  | .start | .store _ _ | .pendsv _ => false

inductive MachineStep (fpu : Bool) (m : Machine) : MachineEvent → Machine → Prop where
  /-- `SVC_Handler` starts the first task. -/
  | start {c : Cfg} {o : Observation} : step m.cfg .start = some (c, o) →
      MachineStep fpu m .start
        ⟨c, resumeContext fpu c.kernel (c.kernel.tasks c.kernel.currentTask).sp m.regs⟩
  /-- The running task changes its registers and memory as it likes, the
  stacks of the other tasks excepted. -/
  | thread {regs : Registers} {memory : Memory} :
      (∀ j < m.cfg.kernel.taskCount, j ≠ m.current →
        ∀ a : Ptr, a.toNat ∈ m.cfg.kernel.stackBytes j → memory a = m.cfg.kernel.memory a) →
      MachineStep fpu m .thread ⟨{ m.cfg with kernel := { m.cfg.kernel with memory } }, regs⟩
  | system {a : Action} {c : Cfg} {o : Observation} : a.isSystem = true →
      step m.cfg a = some (c, o) → MachineStep fpu m (.system a) ⟨c, m.regs⟩
  | pendsv {regs : Registers} {k : Kernel} : m.cfg.kernel.kernelStarted = true →
      m.cfg.pending = true → m.SavesInside fpu →
      pendsvHandler fpu m.regs m.cfg.kernel = .ok (regs, k) →
      MachineStep fpu m .pendsv ⟨{ m.cfg with kernel := k, pending := false }, regs⟩

structure MachineTransition where
  pre : Machine
  event : MachineEvent
  post : Machine

inductive MachineRun (fpu : Bool) (m : Machine) : List MachineTransition → Machine → Prop where
  | nil : MachineRun fpu m [] m
  | snoc {tr : List MachineTransition} {m₁ m₂ : Machine} {e : MachineEvent} :
      MachineRun fpu m tr m₁ → MachineStep fpu m₁ e m₂ →
      MachineRun fpu m (tr ++ [⟨m₁, e, m₂⟩]) m₂

/-- The registers task `t` is switched out with, if the transition switches
it out. -/
def MachineTransition.switchesOut (t : Nat) (x : MachineTransition) : Option Registers :=
  match x.event with
  | .pendsv => if x.pre.current = t then some x.pre.regs else none
  | _ => none

/-- The registers `t` was last switched out with. -/
def lastSwitchedOut (t : Nat) (tr : List MachineTransition) : Option Registers :=
  (tr.filterMap (MachineTransition.switchesOut t)).getLast?

theorem lastSwitchedOut_snoc (t : Nat) (tr : List MachineTransition) (x : MachineTransition) :
    lastSwitchedOut t (tr ++ [x]) = (x.switchesOut t).or (lastSwitchedOut t tr) := by
  rw [lastSwitchedOut, List.filterMap_append, List.getLast?_append, lastSwitchedOut]
  cases h : x.switchesOut t with
  | none => simp [h]
  | some r => simp [h]

/-! ## The invariant -/

/-- Memory holds, in the stack of `t` from its saved stack pointer on, a frame
that restores the registers `r`, whatever the registers hold ahead of it. -/
structure Holds (fpu : Bool) (k : Kernel) (t : Nat) (r : Registers) : Prop where
  bottom_le : (k.tasks t).stackBottom.toNat ≤ (k.tasks t).sp.toNat
  le_top : (k.tasks t).sp.toNat + contextSize fpu r.excReturn ≤ (k.tasks t).stackTop.toNat
  restores : ∀ r', Preserved fpu r (archRestoreTaskContext fpu k.memory (k.tasks t).sp r')

/-- A frame outlives whatever does not write its stack. -/
theorem Holds.frame {fpu : Bool} {k k' : Kernel} {t : Nat} {r : Registers} (h : Holds fpu k t r)
    (hledger : (k'.ledger t).setup = (k.ledger t).setup) (hsp : (k'.ledger t).sp = (k.ledger t).sp)
    (hmem : ∀ a : Ptr, a.toNat ∈ k.stackBytes t → k'.memory a = k.memory a) :
    Holds fpu k' t r := by
  have hbottom : (k'.tasks t).stackBottom = (k.tasks t).stackBottom :=
    congrArg TaskSetup.stackBottom hledger
  have htop : (k'.tasks t).stackTop = (k.tasks t).stackTop := congrArg TaskSetup.stackTop hledger
  change (k'.tasks t).sp = (k.tasks t).sp at hsp
  have hlow := h.bottom_le
  have hhigh := h.le_top
  refine ⟨?_, ?_, fun r' => ?_⟩
  · rw [hbottom, hsp]
    exact hlow
  · rw [htop, hsp]
    exact hhigh
  · -- The word at the saved stack pointer is the saved `EXC_RETURN`.
    have hexc : k.memory (k.tasks t).sp = r.excReturn := (h.restores r').excReturn
    have hlt := (k.tasks t).stackTop.toNat_lt
    have hsame : archRestoreTaskContext fpu k'.memory (k.tasks t).sp r'
        = archRestoreTaskContext fpu k.memory (k.tasks t).sp r' := by
      refine archRestoreTaskContext_congr fpu r' (by rw [hexc]; omega) fun a hle ha => ?_
      rw [hexc] at ha
      exact hmem a ⟨by omega, by omega⟩
    rw [hsp, hsame]
    exact h.restores r'

def Kernel.StacksDisjoint (k : Kernel) : Prop :=
  ∀ i < k.taskCount, ∀ j < k.taskCount, i ≠ j → Disjoint (k.stackBytes i) (k.stackBytes j)

/-- Every task that is not running has its registers saved: `out t` is what `t`
had when it was last switched out, and restoring from its stack gives just
that. Stacks have no byte in common, so no other task's saving writes over it.
-/
structure Saved (fpu : Bool) (out : Nat → Option Registers) (m : Machine) : Prop where
  sched : Sched m.cfg
  stacks_disjoint : m.cfg.kernel.StacksDisjoint
  holds : ∀ t < m.cfg.kernel.taskCount, t ≠ m.current →
    ∀ r, out t = some r → Holds fpu m.cfg.kernel t r

/-- A step of the kernel that is not a switch or a store leaves memory
alone. -/
theorem StepCases.memory_eq {c c' : Cfg} {a : Action} {o : Observation} (h : StepCases c a c' o)
    (ha : a = .start ∨ a.isSystem = true) : c'.kernel.memory = c.kernel.memory := by
  cases h with
  | start _ hk =>
      obtain rfl := jrtKernelStart_spec hk
      rfl
  | thread _ _ hseg => exact hseg.frame.2.2.2.2.2.2.2.2.2
  | tick _ hk => exact (tickTasks_frame hk).2.2.2.2.2.2.2.2.2.2.2.2.2.2
  | isr => exact (isrCall_frame c.kernel _).2.2.2.2.2.2.2.2.2
  | cycles => rfl
  | pendsv | store => rcases ha with ha | ha <;> cases ha

/-- The scheduler's invariant does not look at memory. -/
theorem Sched.withMemory {c : Cfg} (h : Sched c) (memory : Memory) :
    Sched { c with kernel := { c.kernel with memory } } where
  count := h.count
  count_lt := h.count_lt
  service := h.service
  current_lt := h.current_lt
  currentTask := h.currentTask
  running := h.running
  idle := h.idle
  idle_pc := h.idle_pc
  waiting := h.waiting
  blocked := h.blocked
  thread := h.thread

/-- What a task was given stays, so its stack does. -/
theorem stackBytes_eq {k k' : Kernel} {t : Nat}
    (h : (k'.ledger t).setup = (k.ledger t).setup) : k'.stackBytes t = k.stackBytes t :=
  congrArg (fun s : TaskSetup => Set.Ico s.stackBottom.toNat s.stackTop.toNat) h

theorem Kernel.StacksDisjoint.of_setup {k k' : Kernel} (h : k.StacksDisjoint)
    (hcount : k'.taskCount = k.taskCount)
    (hsetup : ∀ t, (k'.ledger t).setup = (k.ledger t).setup) : k'.StacksDisjoint := by
  intro i hi j hj hij
  rw [hcount] at hi hj
  rw [stackBytes_eq (hsetup i), stackBytes_eq (hsetup j)]
  exact h i hi j hj hij

namespace Saved

variable {fpu : Bool} {out : Nat → Option Registers} {m : Machine}

/-- A step that keeps current task, saved stack pointers, and the memory in
the stacks of the others. -/
theorem of_kept (h : Saved fpu out m) {c : Cfg} {regs : Registers} (hs : Sched c)
    (hcur : c.kernel.currentTask = m.cfg.kernel.currentTask)
    (hcount : c.kernel.taskCount = m.cfg.kernel.taskCount)
    (hsetup : ∀ t, (c.kernel.ledger t).setup = (m.cfg.kernel.ledger t).setup)
    (hsp : ∀ t, (c.kernel.ledger t).sp = (m.cfg.kernel.ledger t).sp)
    (hmem : ∀ t < m.cfg.kernel.taskCount, t ≠ m.current →
      ∀ a : Ptr, a.toNat ∈ m.cfg.kernel.stackBytes t → c.kernel.memory a = m.cfg.kernel.memory a) :
    Saved fpu out ⟨c, regs⟩ where
  sched := hs
  stacks_disjoint := h.stacks_disjoint.of_setup hcount hsetup
  holds := by
    intro t ht hne r hr
    change t < c.kernel.taskCount at ht
    change t ≠ c.kernel.currentTask at hne
    rw [hcount] at ht
    rw [hcur] at hne
    exact (h.holds t ht hne r hr).frame (hsetup t) (hsp t) (hmem t ht hne)

theorem of_system (h : Saved fpu out m) {a : Action} {c : Cfg} {o : Observation}
    {regs : Registers} (hstep : StepCases m.cfg a c o) (ha : ∀ sp, a ≠ .pendsv sp)
    (hmem : c.kernel.memory = m.cfg.kernel.memory) : Saved fpu out ⟨c, regs⟩ := by
  refine h.of_kept (h.sched.step hstep) (hstep.mpu_eq ha).2 hstep.taskCount hstep.setup
    (fun t => ?_) fun t _ _ a _ => congrFun hmem a
  rcases hstep.ledger_at t with ⟨-, n, hn⟩ | ⟨sp, rfl, -⟩
  · rw [hn]
    rfl
  · exact absurd rfl (ha sp)

/-- A context switch: the outgoing task's registers are in its stack, and
the selected task has those it was switched out with. -/
theorem pendsv (h : Saved fpu out m) {regs : Registers} {k : Kernel}
    (hstarted : m.cfg.kernel.kernelStarted = true) (hpending : m.cfg.pending = true)
    (hinside : m.SavesInside fpu)
    (hhandler : pendsvHandler fpu m.regs m.cfg.kernel = .ok (regs, k)) :
    let out' := fun t => (if m.current = t then some m.regs else none).or (out t)
    Saved fpu out' ⟨{ m.cfg with kernel := k, pending := false }, regs⟩
      ∧ regs = resumeContext fpu k (k.tasks k.currentTask).sp m.regs
      ∧ ∀ r, out' k.currentTask = some r → Preserved fpu r regs := by
  intro out'
  simp only [pendsvHandler, exec_bind_eq_ok] at hhandler
  obtain ⟨⟨sp, k'⟩, hswitch, hhandler⟩ := hhandler
  obtain ⟨rfl, rfl⟩ := Prod.mk.inj (Except.ok.inj hhandler)
  obtain ⟨hbottom, htop⟩ := hinside
  obtain ⟨hlow, hother, hrestores⟩ :=
    pendsvPush_spec fpu m.regs m.cfg.kernel.memory (by omega)
  generalize pendsvPush fpu m.regs m.cfg.kernel.memory = pushed at hswitch hlow hother hrestores
  have hstep : StepCases { m.cfg with kernel := { m.cfg.kernel with memory := pushed.2 } }
      (.pendsv pushed.1) { m.cfg with kernel := k', pending := false } {} :=
    .pendsv hstarted hpending hswitch
  have hsched := (h.sched.withMemory pushed.2).step hstep
  have hcount : k'.taskCount = m.cfg.kernel.taskCount := hstep.taskCount
  have hsetup : ∀ t, (k'.ledger t).setup = (m.cfg.kernel.ledger t).setup := hstep.setup
  obtain ⟨rfl, hmemory, -⟩ := pendsvSwitch_install hswitch
  have hsp : ∀ t, (k'.ledger t).sp
      = if t = m.current then pushed.1 else (m.cfg.kernel.ledger t).sp := by
    intro t
    rcases hstep.ledger_at t with ⟨hno, -⟩ | ⟨currentSp, heq, hledger⟩
    · exact absurd rfl (hno pushed.1)
    · obtain rfl := Action.pendsv.inj heq
      rw [hledger]
      change (if t = m.current then _ else _ : TaskLedger).sp = _
      split <;> rfl
  have hcurrent : m.current < m.cfg.kernel.taskCount := by
    rw [Machine.current, h.sched.currentTask]
    exact h.sched.current_lt
  -- Every frame, the new one included, is in memory behind the switch.
  have hholds : ∀ t < m.cfg.kernel.taskCount, ∀ r, out' t = some r → Holds fpu k' t r := by
    intro t ht r hr
    by_cases htm : t = m.current
    · have hregs : m.regs = r := by
        simp only [out', if_pos htm.symm, Option.some_or] at hr
        exact Option.some.inj hr
      have hstack : (k'.tasks t).stackBottom = (m.cfg.kernel.tasks t).stackBottom
          ∧ (k'.tasks t).stackTop = (m.cfg.kernel.tasks t).stackTop :=
        ⟨congrArg TaskSetup.stackBottom (hsetup t), congrArg TaskSetup.stackTop (hsetup t)⟩
      have hsaved : (k'.tasks t).sp = pushed.1 := (hsp t).trans (if_pos htm)
      rw [← hregs]
      refine ⟨?_, ?_, fun r' => ?_⟩
      · rw [hstack.1, hsaved, htm]
        omega
      · rw [hstack.2, hsaved, htm]
        omega
      · rw [hsaved, hmemory]
        exact hrestores r'
    · have hout : out t = some r := by
        simpa only [out', if_neg (Ne.symm htm), Option.none_or] using hr
      refine (h.holds t ht htm r hout).frame (hsetup t) ((hsp t).trans (if_neg htm)) ?_
      intro a ha
      rw [hmemory]
      refine hother a ?_
      by_contra hin
      have hmine : a.toNat ∈ m.cfg.kernel.stackBytes m.current := ⟨by omega, by omega⟩
      exact Set.disjoint_left.mp (h.stacks_disjoint t ht m.current hcurrent htm) ha hmine
  have hnext : k'.currentTask < m.cfg.kernel.taskCount := by
    have hlt := hsched.current_lt
    rw [← hsched.currentTask] at hlt
    exact hcount ▸ hlt
  refine ⟨⟨hsched, h.stacks_disjoint.of_setup hcount hsetup, ?_⟩, rfl, ?_⟩
  · intro t ht _ r hr
    exact hholds t (hcount ▸ ht) r hr
  · intro r hr
    obtain ⟨hcore, hpsp, hexc, hfp⟩ := (hholds _ hnext r hr).restores m.regs
    exact ⟨hcore, hpsp, hexc, hfp⟩

theorem step (h : Saved fpu out m) {e : MachineEvent} {m' : Machine}
    (hstep : MachineStep fpu m e m') :
    Saved fpu (fun t => (MachineTransition.switchesOut t ⟨m, e, m'⟩).or (out t)) m' := by
  cases hstep with
  | start hs =>
      exact h.of_system (step_cases hs) (by simp) ((step_cases hs).memory_eq (Or.inl rfl))
  | thread hother =>
      exact h.of_kept (h.sched.withMemory _) rfl rfl (fun _ => rfl) (fun _ => rfl) hother
  | system ha hs =>
      refine h.of_system (step_cases hs) ?_ ((step_cases hs).memory_eq (Or.inr ha))
      rintro sp rfl
      cases ha
  | pendsv hstarted hpending hinside hhandler =>
      exact (h.pendsv hstarted hpending hinside hhandler).1

end Saved

/-- Along a run, every task that is not running has the registers saved it
was last switched out with. -/
theorem MachineRun.saved {fpu : Bool} {m₀ m : Machine} {tr : List MachineTransition}
    (h : MachineRun fpu m₀ tr m) (hs : Sched m₀.cfg) (hstacks : m₀.cfg.kernel.StacksDisjoint) :
    Saved fpu (fun t => lastSwitchedOut t tr) m := by
  induction h with
  | nil =>
      refine ⟨hs, hstacks, fun t _ _ r hr => ?_⟩
      cases hr
  | snoc _ hstep ih =>
      have hnext := ih.step hstep
      simpa only [lastSwitchedOut_snoc] using hnext

/-! ## The theorem -/

theorem resumeContext_control (fpu : Bool) (k : Kernel) (sp : Ptr) (r : Registers) :
    ((resumeContext fpu k sp r).control &&& 4 ≠ 0
        ↔ extended fpu (resumeContext fpu k sp r).excReturn = true)
      ∧ ((resumeContext fpu k sp r).control &&& 1 ≠ 0
        ↔ (k.tasks k.currentTask).flags &&& jrtTaskFlagUnprivileged ≠ 0) := by
  have hexc : (resumeContext fpu k sp r).excReturn
      = (archRestoreTaskContext fpu k.memory sp r).excReturn := rfl
  have hcontrol : (resumeContext fpu k sp r).control
      = if extended fpu (archRestoreTaskContext fpu k.memory sp r).excReturn = true then
          taskCurrentControl k ||| 4
        else taskCurrentControl k := rfl
  rw [hexc, hcontrol, taskCurrentControl]
  by_cases hflags : (k.tasks k.currentTask).flags &&& jrtTaskFlagUnprivileged ≠ 0
  · rw [if_pos hflags]
    split
    · next hext => exact ⟨iff_of_true (by decide) hext, iff_of_true (by decide) hflags⟩
    · next hext => exact ⟨iff_of_false (by decide) hext, iff_of_true (by decide) hflags⟩
  · rw [if_neg hflags]
    split
    · next hext => exact ⟨iff_of_true (by decide) hext, iff_of_false (by decide) hflags⟩
    · next hext => exact ⟨iff_of_false (by decide) hext, iff_of_false (by decide) hflags⟩

/-- In every run of a system whose stacks are apart, a context switch
leaves the selected task with the registers it was last switched out with,
if it has been, and with a `CONTROL` that goes with its frame and its
flags. -/
theorem context_preserved {img : Image} {fpu : Bool} {m₀ m : Machine}
    {tr : List MachineTransition} {x : MachineTransition} (hreach : Reachable img m₀.cfg)
    (hstacks : m₀.cfg.kernel.StacksDisjoint) (hrun : MachineRun fpu m₀ (tr ++ [x]) m)
    (hx : x.event = .pendsv) :
    (∀ r, lastSwitchedOut m.current (tr ++ [x]) = some r → Preserved fpu r m.regs)
      ∧ (m.regs.control &&& 4 ≠ 0 ↔ extended fpu m.regs.excReturn = true)
      ∧ (m.regs.control &&& 1 ≠ 0
        ↔ (m.cfg.kernel.tasks m.current).flags &&& jrtTaskFlagUnprivileged ≠ 0) := by
  generalize htr : tr ++ [x] = tr' at hrun
  cases hrun with
  | nil => simp at htr
  | @snoc tr₁ m₁ _ e hearlier hstep =>
      obtain ⟨rfl, hlast⟩ := List.append_inj' htr rfl
      obtain rfl := List.singleton_inj.mp hlast
      obtain rfl : e = .pendsv := hx
      cases hstep with
      | pendsv hstarted hpending hinside hhandler =>
          have hsaved := hearlier.saved hreach.sched hstacks
          obtain ⟨-, hregs, hback⟩ := hsaved.pendsv hstarted hpending hinside hhandler
          refine ⟨fun r hr => ?_, ?_⟩
          · rw [← htr, lastSwitchedOut_snoc] at hr
            exact hback r hr
          · rw [hregs]
            exact resumeContext_control _ _ _ _

/-! ## Running the machine -/

/-- What the machine can be told to do. `thread` leaves memory alone. -/
inductive Move where
  | start
  | thread (regs : Registers)
  | system (action : Action)
  | pendsv

def Move.event : Move → MachineEvent
  | .start => .start
  | .thread _ => .thread
  | .system action => .system action
  | .pendsv => .pendsv

instance (fpu : Bool) (m : Machine) : Decidable (m.SavesInside fpu) :=
  inferInstanceAs (Decidable (_ ∧ _))

def Machine.move (fpu : Bool) (m : Machine) : Move → Option Machine
  | .start =>
      match step m.cfg .start with
      | some (c, _) =>
          some ⟨c, resumeContext fpu c.kernel (c.kernel.tasks c.kernel.currentTask).sp m.regs⟩
      | none => none
  | .thread regs => some ⟨m.cfg, regs⟩
  | .system action =>
      if action.isSystem then
        match step m.cfg action with
        | some (c, _) => some ⟨c, m.regs⟩
        | none => none
      else none
  | .pendsv =>
      if m.cfg.kernel.kernelStarted = true ∧ m.cfg.pending = true ∧ m.SavesInside fpu then
        match pendsvHandler fpu m.regs m.cfg.kernel with
        | .ok (regs, k) => some ⟨{ m.cfg with kernel := k, pending := false }, regs⟩
        | .error _ => none
      else none

theorem Machine.move_step {fpu : Bool} {m m' : Machine} {move : Move}
    (h : m.move fpu move = some m') : MachineStep fpu m move.event m' := by
  cases move with
  | start =>
      simp only [Machine.move] at h
      split at h
      · next hs =>
          obtain rfl := Option.some.inj h
          exact .start hs
      · cases h
  | thread regs =>
      obtain rfl := Option.some.inj h
      exact .thread fun _ _ _ _ _ => rfl
  | system action =>
      simp only [Machine.move] at h
      split at h
      · next ha =>
          split at h
          · next hs =>
              obtain rfl := Option.some.inj h
              exact .system ha hs
          · cases h
      · cases h
  | pendsv =>
      simp only [Machine.move] at h
      split at h
      · next hc =>
          split at h
          · next hhandler =>
              obtain rfl := Option.some.inj h
              exact .pendsv hc.1 hc.2.1 hc.2.2 hhandler
          · cases h
      · cases h

/-- Take the moves, the last of them first in the list. -/
def runMoves (fpu : Bool) (m : Machine) : List Move → Option (List MachineTransition × Machine)
  | [] => some ([], m)
  | move :: earlier =>
      match runMoves fpu m earlier with
      | some (tr, m₁) =>
          match m₁.move fpu move with
          | some m₂ => some (tr ++ [⟨m₁, move.event, m₂⟩], m₂)
          | none => none
      | none => none

theorem runMoves_run {fpu : Bool} {m m' : Machine} {moves : List Move}
    {tr : List MachineTransition} (h : runMoves fpu m moves = some (tr, m')) :
    MachineRun fpu m tr m' := by
  induction moves generalizing tr m' with
  | nil =>
      obtain ⟨rfl, rfl⟩ := Prod.mk.inj (Option.some.inj h)
      exact .nil
  | cons move earlier ih =>
      simp only [runMoves] at h
      split at h
      · next hrun =>
          split at h
          · next hmove =>
              obtain ⟨rfl, rfl⟩ := Prod.mk.inj (Option.some.inj h)
              exact (ih hrun).snoc (Machine.move_step hmove)
          · cases h
      · cases h

def Kernel.stacksApart (k : Kernel) : Bool :=
  (List.range k.taskCount).all fun i => (List.range k.taskCount).all fun j =>
    i == j || decide (min (k.tasks i).stackTop.toNat (k.tasks j).stackTop.toNat
      ≤ max (k.tasks i).stackBottom.toNat (k.tasks j).stackBottom.toNat)

theorem Kernel.stacksApart_disjoint {k : Kernel} (h : k.stacksApart = true) :
    k.StacksDisjoint := by
  intro i hi j hj hij
  have hpair := List.all_eq_true.mp (List.all_eq_true.mp h i (List.mem_range.mpr hi)) j
    (List.mem_range.mpr hj)
  rw [Bool.or_eq_true, beq_iff_eq, decide_eq_true_eq] at hpair
  exact Set.Ico_disjoint_Ico.mpr (hpair.resolve_left hij)

/-! A sample: two tasks of equal priority with room for extended frames,
switched from one to the other and back. -/

def JrtKernelConfig.deep : JrtKernelConfig where
  tasks := (JrtKernelConfig.sample [2, 2]).tasks.map fun tasks i =>
    { tasks i with stackWords := 40 }
  taskCount := 2

/-- Registers of task `i` of the sample, `EXC_RETURN` as given. -/
def Registers.sample (i excReturn : UInt32) : Registers where
  core := fun r => 0x100 * i + UInt32.ofNat r
  fp := fun r => 0x100 * i + 0x40 + UInt32.ofNat r
  psp := 0x204000A0 + 0x1000 * i
  excReturn := excReturn
  control := 2

def deepMachine : Option Machine :=
  match jrtKernelInit .sample (.zero 0) (some .deep) with
  | .ok (.ok, k) => some ⟨bootCfg k, .sample 0 0xFFFFFFFD⟩
  | _ => none

theorem deepMachine_reachable {m : Machine} (h : deepMachine = some m) :
    Reachable .sample m.cfg := by
  unfold deepMachine at h
  split at h
  · next k hinit =>
      obtain rfl := Option.some.inj h
      exact ⟨bootCfg k, [], ⟨_, _, k, hinit, rfl⟩, .nil⟩
  · cases h

/-- The moves of the sample before its last: the first task is switched
out with an extended frame, the second with a basic one. -/
def deepMoves : List Move :=
  [.system .tick, .thread (.sample 1 0xFFFFFFFD), .pendsv, .system .tick,
    .thread (.sample 0 0xFFFFFFED), .start]

theorem context_preserved_sample : ∃ m₀ tr x m r, deepMachine = some m₀
    ∧ MachineRun true m₀ (tr ++ [x]) m ∧ lastSwitchedOut m.current (tr ++ [x]) = some r
    ∧ extended true r.excReturn = true ∧ Preserved true r m.regs := by
  have hsome : (deepMachine.any fun m₀ => m₀.cfg.kernel.stacksApart &&
      (runMoves true m₀ deepMoves).any fun run => (run.2.move true .pendsv).any fun m =>
        (lastSwitchedOut m.current (run.1 ++ [⟨run.2, .pendsv, m⟩])).any fun r =>
          extended true r.excReturn) = true := by decide +kernel
  obtain ⟨m₀, hm₀, hsome⟩ := (Option.any_eq_true _ _).mp hsome
  rw [Bool.and_eq_true] at hsome
  obtain ⟨happart, hsome⟩ := hsome
  obtain ⟨⟨tr, m₁⟩, hrun, hsome⟩ := (Option.any_eq_true _ _).mp hsome
  obtain ⟨m, hmove, hsome⟩ := (Option.any_eq_true _ _).mp hsome
  obtain ⟨r, hr, hext⟩ := (Option.any_eq_true _ _).mp hsome
  have hrun' : MachineRun true m₀ (tr ++ [⟨m₁, .pendsv, m⟩]) m :=
    (runMoves_run hrun).snoc (Machine.move_step hmove)
  exact ⟨m₀, tr, _, m, r, hm₀, hrun', hr, hext,
    (context_preserved (deepMachine_reachable hm₀) (Kernel.stacksApart_disjoint happart) hrun'
      rfl).1 r hr⟩

end JustRT
