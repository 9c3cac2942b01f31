import JustRT.Activation
import JustRT.Suspension

/-!
# Release latency

A release notes its cycle, unless one is noted already, and the start of the
activation takes the latency from there. `releaseBase` is where the latency
is to be taken from: the first release since the last activation completed,
or the last reset behind it. What the record notes is that base as long as no
release comes while the activation is still active; a task resumed after it
was preempted and suspended gets one, and what is noted then outlives the
completion.
-/

namespace JustRT

/-! ## Reset -/

/-- What `JRT_BenchmarkReset` makes of a record. -/
def JrtTaskBenchmarkRecord.reset (record : JrtTaskBenchmarkRecord) (now : UInt32) :
    JrtTaskBenchmarkRecord :=
  { record with
    releaseCount := 0
    completionCount := 0
    coalescedCount := 0
    maxReleaseLatencyCycles := 0
    maxActivationCycles := 0
    releaseCycle := if record.releasePending then now else record.releaseCycle
    activationStartCycle := if record.activationActive then now else record.activationStartCycle }

def jrtBenchmarkReset (k : Kernel) (inIsr : Bool) : JrtStatus × Kernel :=
  if !(k.kernelStarted && !inIsr) then (.invalidContext, k)
  else
    let now := k.benchmark.dwtCyccnt
    (.ok, { k with benchmark := { k.benchmark with
      records := fun index =>
        if index < k.benchmark.taskCount then (k.benchmark.records index).reset now
        else k.benchmark.records index } })

/-! ## Runs with resets -/

/-- A step of the system, or a call of `JRT_BenchmarkReset`. -/
inductive BenchmarkAction where
  | system (a : Action)
  | reset

/-- One step of the system whose running task may reset the benchmark. -/
def benchmarkStep (c : Cfg) : BenchmarkAction → Option Cfg
  | .system a => (step c a).map Prod.fst
  | .reset =>
      if c.threadRuns && c.pc c.current == .user then
        some { c with kernel := (jrtBenchmarkReset c.kernel false).2 }
      else none

structure BenchmarkTransition where
  pre : Cfg
  action : BenchmarkAction
  post : Cfg

inductive BenchmarkRun (c : Cfg) : List BenchmarkTransition → Cfg → Prop where
  | nil : BenchmarkRun c [] c
  | snoc {tr : List BenchmarkTransition} {c₁ c₂ : Cfg} {a : BenchmarkAction} :
      BenchmarkRun c tr c₁ → benchmarkStep c₁ a = some c₂ →
      BenchmarkRun c (tr ++ [⟨c₁, a, c₂⟩]) c₂

/-- Where the latency is taken from, behind a step that takes the task from
`s` to `s'` at the cycle `now`. -/
def baseMoved (base : Option UInt32) (now : UInt32) (s s' : TaskState) : Option UInt32 :=
  if s.Idle ∧ ¬s'.Idle then base.or (some now)
  else if s = .running ∧ s'.Idle then none
  else base

def baseAfter (i : Nat) (base : Option UInt32) (x : BenchmarkTransition) : Option UInt32 :=
  let now := x.pre.kernel.benchmark.dwtCyccnt
  match x.action with
  | .system _ => baseMoved base now (x.pre.kernel.tasks i).state (x.post.kernel.tasks i).state
  | .reset => base.map fun _ => now

/-- The cycle of the first release of task `i` since its last activation
completed, or of the last reset behind that release. -/
def releaseBase (i : Nat) (tr : List BenchmarkTransition) : Option UInt32 :=
  tr.foldl (baseAfter i) none

namespace BenchmarkTransition

def Starts (i : Nat) (x : BenchmarkTransition) : Prop :=
  (x.pre.kernel.benchmark.records i).activationActive = false
    ∧ (x.post.kernel.benchmark.records i).activationActive = true

/-- The latency of an activation that begins is taken from `base`, and
nothing else but a reset writes the greatest latency. -/
def MeasuresFrom (i : Nat) (base : Option UInt32) (x : BenchmarkTransition) : Prop :=
  (x.Starts i → ∃ b, base = some b
      ∧ (x.post.kernel.benchmark.records i).maxReleaseLatencyCycles
        = max (x.pre.kernel.benchmark.dwtCyccnt - b)
          (x.pre.kernel.benchmark.records i).maxReleaseLatencyCycles)
    ∧ (¬x.Starts i → x.action ≠ .reset →
      (x.post.kernel.benchmark.records i).maxReleaseLatencyCycles
        = (x.pre.kernel.benchmark.records i).maxReleaseLatencyCycles)

/-- Task `i` is resumed while its activation is active: it was suspended
when it was preempted, not by itself. -/
def ReopensActivation (i : Nat) (x : BenchmarkTransition) : Prop :=
  x.action = .system (.call (.taskResume i))
    ∧ (x.pre.kernel.tasks i).state = .suspended
    ∧ (x.pre.kernel.benchmark.records i).activationActive = true

end BenchmarkTransition

/-! ## Records and bases -/

/-- What the record of a task in `state` notes is the base. -/
structure JrtTaskBenchmarkRecord.Notes (r : JrtTaskBenchmarkRecord) (state : TaskState)
    (base : Option UInt32) : Prop where
  active : r.activationActive = true → r.releasePending = false
  pending : r.releasePending = true → base = some r.releaseCycle
  based : base ≠ none → r.activationActive = true ∨ r.releasePending = true
  running : state = .running → r.releasePending = false
  waits : state = .blocked ∨ state = .sleeping → r.activationActive = false

namespace JrtTaskBenchmarkRecord.Notes

variable {r : JrtTaskBenchmarkRecord} {state : TaskState} {base : Option UInt32} (now : UInt32)

theorem coalesced (h : r.Notes state base) : r.coalesced.Notes state base :=
  ⟨h.active, h.pending, h.based, h.running, h.waits⟩

/-- A release is noted behind a completed activation only. -/
theorem released (h : r.Notes state base) (hinactive : r.activationActive = false) :
    (r.released now).Notes .ready (base.or (some now)) := by
  have hpending : base.or (some now) = some (if r.releasePending then r.releaseCycle else now) := by
    cases hp : r.releasePending with
    | true =>
        rw [h.pending hp]
        rfl
    | false =>
        have hnone : base = none := by
          by_contra hbase
          rcases h.based hbase with ha | hp'
          · exact absurd (hinactive.symm.trans ha) (by decide)
          · exact absurd (hp.symm.trans hp') (by decide)
        rw [hnone]
        rfl
  refine ⟨fun hno => absurd (hinactive.symm.trans hno) (by decide), fun _ => hpending,
    fun _ => Or.inr rfl, fun hno => ?_, fun _ => hinactive⟩
  cases hno

theorem completed (h : r.Notes .running base) (hs : state.Idle) :
    (r.completed now).Notes state none := by
  have hfields : (r.completed now).activationActive = false
      ∧ (r.completed now).releasePending = r.releasePending := by
    rw [JrtTaskBenchmarkRecord.completed]
    cases ha : r.activationActive with
    | true => exact ⟨rfl, rfl⟩
    | false => exact ⟨ha, rfl⟩
  obtain ⟨hinactive, hpending⟩ := hfields
  rw [h.running rfl] at hpending
  refine ⟨fun _ => hpending, fun hno => absurd (hpending.symm.trans hno) (by decide),
    fun hno => absurd rfl hno, fun hno => absurd hno hs.ne_running, fun _ => hinactive⟩

theorem yielded (h : r.Notes .running base) : r.Notes .ready base :=
  { h with
    running := fun hno => by cases hno
    waits := fun hno => by rcases hno with hno | hno <;> cases hno }

theorem setAside (h : r.Notes .ready base) : r.Notes .suspended base :=
  { h with
    running := fun hno => by cases hno
    waits := fun hno => by rcases hno with hno | hno <;> cases hno }

theorem started (h : r.Notes .ready base) : (r.started now).Notes .running base := by
  rw [JrtTaskBenchmarkRecord.started]
  have hwaits : ∀ {b : Bool}, TaskState.running = .blocked ∨ TaskState.running = .sleeping →
      b = false := fun hno => by rcases hno with hno | hno <;> cases hno
  split
  · exact ⟨fun _ => rfl, fun hno => absurd hno Bool.false_ne_true, fun _ => Or.inl rfl,
      fun _ => rfl, hwaits⟩
  · next hstarts =>
      refine { h with running := fun _ => ?_, waits := hwaits }
      cases hp : r.releasePending with
      | false => rfl
      | true =>
          cases ha : r.activationActive with
          | true => exact absurd ((h.active ha).symm.trans hp) (by decide)
          | false =>
              rw [hp, ha] at hstarts
              exact absurd rfl hstarts

theorem reset (h : r.Notes state base) : (r.reset now).Notes state (base.map fun _ => now) where
  active := h.active
  pending hp := by
    change r.releasePending = true at hp
    rw [h.pending hp, JrtTaskBenchmarkRecord.reset, if_pos hp]
    rfl
  based hbase := h.based fun hnone => hbase (by rw [hnone]; rfl)
  running := h.running
  waits := h.waits

theorem started_latency (h : r.Notes state base) :
    (r.activationActive = false → (r.started now).activationActive = true →
        ∃ b, base = some b
          ∧ (r.started now).maxReleaseLatencyCycles = max (now - b) r.maxReleaseLatencyCycles)
      ∧ (¬(r.activationActive = false ∧ (r.started now).activationActive = true) →
        (r.started now).maxReleaseLatencyCycles = r.maxReleaseLatencyCycles) := by
  rw [JrtTaskBenchmarkRecord.started]
  split
  · next hstarts =>
      rw [Bool.and_eq_true, Bool.not_eq_true'] at hstarts
      exact ⟨fun _ _ => ⟨r.releaseCycle, h.pending hstarts.1, rfl⟩,
        fun hno => absurd ⟨hstarts.2, rfl⟩ hno⟩
  · exact ⟨fun hinactive hactive => absurd (hinactive.symm.trans hactive) (by decide), fun _ => rfl⟩

end JrtTaskBenchmarkRecord.Notes

theorem JrtTaskBenchmarkRecord.Clear.reset {r : JrtTaskBenchmarkRecord} (h : r.Clear)
    (now : UInt32) : (r.reset now).Clear :=
  ⟨rfl, rfl, rfl, rfl, h.releasePending, h.activationActive⟩

/-! ## Meters and bases -/

/-- A task's meter, where the latency is to be taken from `base`. -/
structure Meter.NotesBase (m : Meter) (available : Bool) (base : Option UInt32) : Prop where
  clear : available = false → m.record.Clear
  notes : available = true → m.record.Notes m.state base

/-- The latencies of a step that takes a task's record from `r` to `r'`. -/
def LatencyStep (r r' : JrtTaskBenchmarkRecord) (base : Option UInt32) (now : UInt32) : Prop :=
  (r.activationActive = false → r'.activationActive = true →
      ∃ b, base = some b ∧ r'.maxReleaseLatencyCycles = max (now - b) r.maxReleaseLatencyCycles)
    ∧ (¬(r.activationActive = false ∧ r'.activationActive = true) →
      r'.maxReleaseLatencyCycles = r.maxReleaseLatencyCycles)

/-- Nothing but a context switch begins an activation. -/
theorem LatencyStep.of_kept {r r' : JrtTaskBenchmarkRecord} {base : Option UInt32} {now : UInt32}
    (hactive : r'.activationActive = true → r.activationActive = true)
    (hmax : r'.maxReleaseLatencyCycles = r.maxReleaseLatencyCycles) :
    LatencyStep r r' base now :=
  ⟨fun hno hyes => absurd (hno.symm.trans (hactive hyes)) (by decide), fun _ => hmax⟩

/-- A hook leaves the record alone if there is no counter. -/
theorem LatencyStep.apply {c : CycleCounter} {r : JrtTaskBenchmarkRecord} {base : Option UInt32}
    {f : JrtTaskBenchmarkRecord → UInt32 → JrtTaskBenchmarkRecord}
    (h : c.available = true → LatencyStep r (f r c.now) base c.now) :
    LatencyStep r (c.apply f r) base c.now := by
  cases hc : c.available with
  | true =>
      rw [(c.apply_eq f r).2 hc]
      exact h hc
  | false =>
      rw [(c.apply_eq f r).1 hc]
      exact .of_kept id rfl

theorem baseMoved_demoted (base : Option UInt32) (now : UInt32) (s : TaskState) :
    baseMoved base now s s.demoted = base := by
  cases s <;> rfl

theorem baseMoved_running (base : Option UInt32) (now : UInt32) {s : TaskState}
    (h : s.demoted = .ready) : baseMoved base now s .running = base := by
  cases s <;> first | rfl | cases h

theorem Meter.Moves.latency {c : CycleCounter} {m m' : Meter} (h : m.Moves c m')
    (base : Option UInt32) : LatencyStep m.record m'.record base c.now := by
  cases h with
  | kept | yielded | setAside => exact .of_kept id rfl
  | released => exact .apply fun _ => .of_kept id rfl
  | completed =>
      refine .apply fun _ => ?_
      rw [JrtTaskBenchmarkRecord.completed]
      split
      · exact .of_kept (fun hno => absurd hno Bool.false_ne_true) rfl
      · exact .of_kept id rfl

namespace Meter.NotesBase

variable {m m' : Meter} {base base' : Option UInt32} {c : CycleCounter}

/-- A hook `f` is applied, and the task goes to `state`. -/
theorem hooked (h : m.NotesBase c.available base)
    (f : JrtTaskBenchmarkRecord → UInt32 → JrtTaskBenchmarkRecord) {state : TaskState}
    (hnotes : c.available = true → m.record.Notes m.state base →
      (f m.record c.now).Notes state base') :
    ((m.apply c f).withState state).NotesBase c.available base' where
  clear hc := by
    show (c.apply f m.record).Clear
    rw [(c.apply_eq f m.record).1 hc]
    exact h.clear hc
  notes hc := by
    show (c.apply f m.record).Notes state base'
    rw [(c.apply_eq f m.record).2 hc]
    exact hnotes hc (h.notes hc)

/-- The state of the task is written, and its record kept. -/
theorem restated (h : m.NotesBase c.available base) (hrecord : m'.record = m.record)
    (hnotes : m.record.Notes m.state base → m.record.Notes m'.state base) :
    m'.NotesBase c.available base := by
  refine ⟨fun hc => ?_, fun hc => ?_⟩
  · rw [hrecord]
    exact h.clear hc
  · rw [hrecord]
    exact hnotes (h.notes hc)

theorem coalesce (h : m.NotesBase c.available base) :
    (m.coalesce c).NotesBase c.available base :=
  h.hooked (fun r _ => r.coalesced) fun _ hm => hm.coalesced

/-- Between two context switches, if a suspended task is not resumed with an
active activation. -/
theorem moves (h : m.NotesBase c.available base) (hm : m.Moves c m')
    (hclosed : m.state = .suspended → m'.state ≠ .suspended → m.record.activationActive = false) :
    m'.NotesBase c.available (baseMoved base c.now m.state m'.state) := by
  cases hm with
  | kept =>
      have hsame : baseMoved base c.now m.state m.state = base := by
        cases m.state <;> rfl
      rw [hsame]
      exact h
  | released hidle =>
      have hmoved : baseMoved base c.now m.state (m.release c).state = base.or (some c.now) :=
        if_pos ⟨hidle, fun hno => hno.ne_ready rfl⟩
      rw [hmoved]
      refine h.hooked JrtTaskBenchmarkRecord.released fun _ hm => hm.released c.now ?_
      rcases hidle with hs | hs | hs
      · exact hm.waits (Or.inl hs)
      · exact hm.waits (Or.inr hs)
      · exact hclosed hs fun hno => by cases hno
  | @completed state hrun hidle =>
      have hmoved : baseMoved base c.now m.state (m.complete c state).state = none := by
        rw [baseMoved, if_neg fun hno => hno.1.ne_running hrun]
        exact if_pos ⟨hrun, hidle⟩
      rw [hmoved]
      refine h.hooked JrtTaskBenchmarkRecord.completed fun _ hm => ?_
      rw [hrun] at hm
      exact hm.completed c.now hidle
  | yielded hrun =>
      have hkept : baseMoved base c.now m.state (m.withState .ready).state = base := by
        rw [hrun]
        rfl
      rw [hkept]
      refine h.restated rfl fun hm => ?_
      rw [hrun] at hm
      exact hm.yielded
  | setAside hready =>
      have hkept : baseMoved base c.now m.state (m.withState .suspended).state = base := by
        rw [hready]
        rfl
      rw [hkept]
      refine h.restated rfl fun hm => ?_
      rw [hready] at hm
      exact hm.setAside

theorem demoted (h : m.NotesBase c.available base) (hrecord : m'.record = m.record)
    (hstate : m'.state = m.state.demoted) : m'.NotesBase c.available base := by
  refine h.restated hrecord fun hm => ?_
  rw [hstate]
  by_cases hrun : m.state = .running
  · rw [hrun] at hm ⊢
    exact hm.yielded
  · rw [demoted_of_ne hrun]
    exact hm

theorem install (h : m.NotesBase c.available base) (hready : m.state = .ready) :
    (m.install c).NotesBase c.available base
      ∧ LatencyStep m.record (m.install c).record base c.now := by
  constructor
  · refine h.hooked JrtTaskBenchmarkRecord.started fun _ hm => ?_
    rw [hready] at hm
    exact hm.started c.now
  · exact .apply fun hc => (h.notes hc).started_latency c.now

/-- One step, unless it resumes the task with an active activation. -/
theorem steps {coalesces : Prop} (h : m.NotesBase c.available base)
    (hm : m.Steps c coalesces m')
    (hclosed : m.state = .suspended → m'.state ≠ .suspended → m.record.activationActive = false) :
    m'.NotesBase c.available (baseMoved base c.now m.state m'.state) := by
  cases hm with
  | moved _ hmoves => exact h.moves hmoves hclosed
  | coalesced _ hmoves => exact (h.moves hmoves hclosed).coalesce
  | demoted _ hrecord hstate =>
      rw [hstate, baseMoved_demoted]
      exact h.demoted hrecord hstate
  | started _ hrecord hstate hready =>
      have hnotes := ((h.demoted hrecord hstate).install hready).1
      rw [hstate] at hready
      rw [Meter.install_state, baseMoved_running _ _ hready]
      exact hnotes

theorem steps_latency {coalesces : Prop} (h : m.NotesBase c.available base)
    (hm : m.Steps c coalesces m') : LatencyStep m.record m'.record base c.now := by
  cases hm with
  | moved _ hmoves => exact hmoves.latency base
  | @coalesced m₁ _ hmoves =>
      have hkept : (m₁.coalesce c).record.activationActive = m₁.record.activationActive
          ∧ (m₁.coalesce c).record.maxReleaseLatencyCycles
            = m₁.record.maxReleaseLatencyCycles := by
        rw [Meter.coalesce, Meter.apply, CycleCounter.apply]
        split <;> exact ⟨rfl, rfl⟩
      rw [LatencyStep, hkept.1, hkept.2]
      exact hmoves.latency base
  | demoted _ hrecord =>
      rw [hrecord]
      exact .of_kept id rfl
  | started _ hrecord hstate hready =>
      have hlatency := ((h.demoted hrecord hstate).install hready).2
      rw [hrecord] at hlatency
      exact hlatency

end Meter.NotesBase

/-! ## Steps -/

/-- The scheduler's invariant does not look at the benchmark. -/
theorem Sched.withBenchmark {c : Cfg} (h : Sched c) (benchmark : Benchmark) :
    Sched { c with kernel := { c.kernel with benchmark } } where
  count := h.count
  count_lt := h.count_lt
  service := h.service
  current_lt := h.current_lt
  currentTask := h.currentTask
  running := h.running
  idle := h.idle
  idle_pc := h.idle_pc
  waiting := h.waiting
  blocked := h.blocked
  thread := h.thread

theorem StepCases.resumes {c c' : Cfg} {a : Action} {o : Observation} (h : StepCases c a c' o)
    (hs : Sched c) {i : Nat} (hstate : (c.kernel.tasks i).state = .suspended)
    (hends : (c'.kernel.tasks i).state ≠ .suspended) : a = .call (.taskResume i) := by
  have hsuspended : Suspended i c := by
    refine ⟨hstate, fun hcur => ?_⟩
    by_contra hpending
    have hthread := hs.thread (Bool.not_eq_true _ ▸ hpending)
    rw [hcur, show (c.kernel.view i).state = .suspended from hstate] at hthread
    rcases hthread with hno | ⟨hno, -⟩ <;> cases hno
  have hresumes : Transition.resumes i ⟨c, a, o, c'⟩ = true := by
    by_contra hno
    exact hends (hsuspended.step hs h (Bool.not_eq_true _ ▸ hno)).1.state
  rw [Transition.resumes] at hresumes
  split at hresumes
  · next id ha =>
      rw [Bool.and_eq_true, beq_iff_eq] at hresumes
      rw [← hresumes.1]
      exact ha
  · cases hresumes

/-- What a step with resets keeps about the scheduler and the counter. -/
structure BenchmarkReady (i : Nat) (c : Cfg) : Prop where
  sched : Sched c
  lt_taskCount : i < c.kernel.taskCount
  lt_measured : i < c.kernel.benchmark.taskCount

section Step

variable {c c' : Cfg} {a : BenchmarkAction} {i : Nat} {base : Option UInt32}

theorem jrtBenchmarkReset_task {k : Kernel} (hstarted : k.kernelStarted = true) :
    (jrtBenchmarkReset k false).2 = { k with benchmark := { k.benchmark with
      records := fun index =>
        if index < k.benchmark.taskCount then
          (k.benchmark.records index).reset k.benchmark.dwtCyccnt
        else k.benchmark.records index } } := by
  rw [jrtBenchmarkReset, hstarted]
  rfl

theorem BenchmarkReady.step (h : BenchmarkReady i c) (hstep : benchmarkStep c a = some c') :
    BenchmarkReady i c' := by
  cases a with
  | system a =>
      obtain ⟨⟨c₂, o⟩, hsystem, rfl⟩ := Option.map_eq_some_iff.mp hstep
      have hcases := step_cases hsystem
      have hcounter : c₂.kernel.counter.taskCount = c.kernel.counter.taskCount := by
        rw [hcases.counter h.sched]
        cases a <;> rfl
      refine ⟨h.sched.step hcases, hcases.taskCount ▸ h.lt_taskCount, ?_⟩
      change c₂.kernel.benchmark.taskCount = c.kernel.benchmark.taskCount at hcounter
      exact hcounter ▸ h.lt_measured
  | reset =>
      simp only [benchmarkStep] at hstep
      split at hstep
      · next hallowed =>
          rw [Bool.and_eq_true, threadRuns_iff] at hallowed
          obtain rfl := Option.some.inj hstep
          rw [jrtBenchmarkReset_task hallowed.1.1]
          exact ⟨h.sched.withBenchmark _, h.lt_taskCount, h.lt_measured⟩
      · cases hstep

theorem BenchmarkReady.notes (h : BenchmarkReady i c)
    (hnotes : (c.kernel.meter i).NotesBase c.kernel.counter.available base)
    (hstep : benchmarkStep c a = some c')
    (hclosed : ¬BenchmarkTransition.ReopensActivation i ⟨c, a, c'⟩) :
    (c'.kernel.meter i).NotesBase c'.kernel.counter.available
      (baseAfter i base ⟨c, a, c'⟩) := by
  cases a with
  | system a =>
      obtain ⟨⟨c₂, o⟩, hsystem, rfl⟩ := Option.map_eq_some_iff.mp hstep
      have hcases := step_cases hsystem
      have havailable : c₂.kernel.counter.available = c.kernel.counter.available := by
        rw [hcases.counter h.sched]
        cases a <;> rfl
      rw [havailable]
      refine hnotes.steps (hcases.meter_steps h.sched h.lt_taskCount) fun hstate hends => ?_
      have hresume := hcases.resumes h.sched hstate hends
      by_contra hactive
      exact hclosed ⟨congrArg _ hresume, hstate, (Bool.not_eq_false _).mp hactive⟩
  | reset =>
      simp only [benchmarkStep] at hstep
      split at hstep
      · next hallowed =>
          rw [Bool.and_eq_true, threadRuns_iff] at hallowed
          obtain rfl := Option.some.inj hstep
          rw [jrtBenchmarkReset_task hallowed.1.1]
          have hrecord : (if i < c.kernel.benchmark.taskCount then
              (c.kernel.benchmark.records i).reset c.kernel.benchmark.dwtCyccnt
              else c.kernel.benchmark.records i)
              = (c.kernel.benchmark.records i).reset c.kernel.benchmark.dwtCyccnt :=
            if_pos h.lt_measured
          refine ⟨fun hc => ?_, fun hc => ?_⟩
          · show JrtTaskBenchmarkRecord.Clear (if i < c.kernel.benchmark.taskCount then _ else _)
            rw [hrecord]
            exact (hnotes.clear hc).reset _
          · show JrtTaskBenchmarkRecord.Notes (if i < c.kernel.benchmark.taskCount then _ else _) _ _
            rw [hrecord]
            exact (hnotes.notes hc).reset _
      · cases hstep

theorem BenchmarkReady.measures (h : BenchmarkReady i c)
    (hnotes : (c.kernel.meter i).NotesBase c.kernel.counter.available base)
    (hstep : benchmarkStep c a = some c') :
    BenchmarkTransition.MeasuresFrom i base ⟨c, a, c'⟩ := by
  cases a with
  | system a =>
      obtain ⟨⟨c₂, o⟩, hsystem, rfl⟩ := Option.map_eq_some_iff.mp hstep
      have hsteps := (step_cases hsystem).meter_steps h.sched h.lt_taskCount
      obtain ⟨hstarts, hkept⟩ := hnotes.steps_latency hsteps
      exact ⟨fun hx => hstarts hx.1 hx.2, fun hx _ => hkept hx⟩
  | reset =>
      refine ⟨fun hx => ?_, fun _ hno => absurd rfl hno⟩
      obtain ⟨hinactive, hactive⟩ := hx
      simp only [benchmarkStep] at hstep
      split at hstep
      · next hallowed =>
          rw [Bool.and_eq_true, threadRuns_iff] at hallowed
          obtain rfl := Option.some.inj hstep
          rw [jrtBenchmarkReset_task hallowed.1.1] at hactive
          simp only [if_pos h.lt_measured] at hactive
          exact absurd (hinactive.symm.trans hactive) (by decide)
      · cases hstep

end Step

/-! ## Runs -/

section Run

variable {img : Image} {c₀ c : Cfg} {tr rest : List BenchmarkTransition} {i : Nat}

theorem Boot.benchmarkReady (h : Boot img c₀) (hi : i < c₀.kernel.benchmark.taskCount) :
    BenchmarkReady i c₀ := by
  have hsched : Sched c₀ := Reachable.sched ⟨c₀, [], h, .nil⟩
  have hmeasured : c₀.kernel.benchmark.taskCount = c₀.kernel.applicationTaskCount + 1 :=
    h.meter.2.1
  have hcount := hsched.count
  exact ⟨hsched, by omega, hi⟩

theorem BenchmarkRun.notes (hrun : BenchmarkRun c₀ tr c) (hboot : Boot img c₀)
    (hi : i < c₀.kernel.benchmark.taskCount) (hclosed : ∀ x ∈ tr, ¬x.ReopensActivation i) :
    BenchmarkReady i c
      ∧ (c.kernel.meter i).NotesBase c.kernel.counter.available (releaseBase i tr) := by
  induction hrun with
  | nil =>
      have hready := hboot.benchmarkReady hi
      have hclear := (hboot.meter.2.2.2 i hready.lt_taskCount).2
      refine ⟨hready, fun _ => hclear, fun _ => ⟨fun _ => hclear.releasePending, fun hno => ?_,
        fun hno => absurd rfl hno, fun _ => hclear.releasePending, fun _ => hclear.activationActive⟩⟩
      exact absurd (hclear.releasePending.symm.trans hno) (by decide)
  | snoc _ hstep ih =>
      rw [List.forall_mem_append, List.forall_mem_singleton] at hclosed
      obtain ⟨hready, hnotes⟩ := ih hclosed.1
      refine ⟨hready.step hstep, ?_⟩
      rw [releaseBase, List.foldl_append]
      exact hready.notes hnotes hstep hclosed.2

theorem BenchmarkRun.split {x : BenchmarkTransition} (h : BenchmarkRun c₀ (tr ++ x :: rest) c) :
    BenchmarkRun c₀ tr x.pre ∧ benchmarkStep x.pre x.action = some x.post := by
  induction rest using List.reverseRecOn generalizing c with
  | nil =>
      generalize htr : tr ++ [x] = all at h
      cases h with
      | nil => simp at htr
      | snoc hrun hstep =>
          obtain ⟨rfl, hx⟩ := List.append_inj' htr rfl
          obtain rfl := List.singleton_inj.mp hx
          exact ⟨hrun, hstep⟩
  | append_singleton rest y ih =>
      generalize htr : tr ++ x :: (rest ++ [y]) = all at h
      cases h with
      | nil => simp at htr
      | snoc hrun =>
          rw [← List.cons_append, ← List.append_assoc] at htr
          obtain ⟨rfl, -⟩ := List.append_inj' htr rfl
          exact ih hrun

/-- In every run in which the task is not resumed with an active activation,
each latency is measured from the first release behind the last completion,
or from the last reset behind that release. -/
theorem releaseLatency_measured (hboot : Boot img c₀) {x : BenchmarkTransition}
    (hrun : BenchmarkRun c₀ (tr ++ x :: rest) c) (hi : i < c₀.kernel.benchmark.taskCount)
    (hclosed : ∀ y ∈ tr, ¬y.ReopensActivation i) : x.MeasuresFrom i (releaseBase i tr) := by
  obtain ⟨hbefore, hstep⟩ := hrun.split
  obtain ⟨hready, hnotes⟩ := hbefore.notes hboot hi hclosed
  exact hready.measures hnotes hstep

end Run

/-! ## A stale release -/

/-- A step of the system, among those with resets. -/
def Transition.benchmark (x : Transition) : BenchmarkTransition :=
  ⟨x.pre, .system x.action, x.post⟩

theorem Run.benchmark {c₀ c : Cfg} {tr : List Transition} (h : Run c₀ tr c) :
    BenchmarkRun c₀ (tr.map Transition.benchmark) c := by
  induction h with
  | nil => exact .nil
  | snoc _ hstep ih =>
      rw [List.map_append]
      refine ih.snoc ?_
      rw [benchmarkStep, hstep]
      rfl

instance (i : Nat) (x : BenchmarkTransition) : Decidable (x.Starts i) :=
  inferInstanceAs (Decidable (_ ∧ _))

/-- The stronger task preempts the other one, suspends it and resumes it at
cycle 20. The other one then completes, and is released and started at
cycle 100. -/
def resumedPreempted : List Action :=
  [.start, .call (.taskDelay 2), .pendsv (sampleSp 0), .call (.taskDelay 3), .pendsv (sampleSp 1),
    .cycles 10, .tick, .tick, .pendsv 0x20410024, .tick, .pendsv (sampleSp 0),
    .call (.taskSuspend 0), .pendsv (sampleSp 1), .cycles 20, .call (.taskResume 0),
    .pendsv (sampleSp 1), .call (.taskDelay 9), .pendsv (sampleSp 1),
    .call (.taskDelay 1), .pendsv (sampleSp 0), .cycles 100, .tick, .pendsv 0x20410024]

/-- The latency of an activation that starts with its release is recorded as
80 cycles. -/
theorem releaseLatency_fails : ∃ c₀ tr x c, Boot .measured c₀ ∧ BenchmarkRun c₀ (tr ++ [x]) c
    ∧ 0 < x.pre.kernel.benchmark.taskCount
    ∧ x.Starts 0 ∧ releaseBase 0 tr = some 100 ∧ x.pre.kernel.benchmark.dwtCyccnt = 100
    ∧ (x.pre.kernel.benchmark.records 0).maxReleaseLatencyCycles = 0
    ∧ (x.post.kernel.benchmark.records 0).maxReleaseLatencyCycles = 80 := by
  have hsome : ((measuredRun [1, 2] resumedPreempted).any fun r =>
      match (r.1.map Transition.benchmark).getLast? with
      | some x => decide (0 < x.pre.kernel.benchmark.taskCount ∧ x.Starts 0
          ∧ releaseBase 0 (r.1.map Transition.benchmark).dropLast = some 100
          ∧ x.pre.kernel.benchmark.dwtCyccnt = 100
          ∧ (x.pre.kernel.benchmark.records 0).maxReleaseLatencyCycles = 0
          ∧ (x.post.kernel.benchmark.records 0).maxReleaseLatencyCycles = 80)
      | none => false) = true := by decide +kernel
  obtain ⟨⟨tr, c⟩, hrun, hfails⟩ := (Option.any_eq_true _ _).mp hsome
  obtain ⟨c₀, hboot, hrun⟩ := measuredRun_run hrun
  split at hfails
  · next x hlast =>
      have hsplit := List.dropLast_append_getLast? x hlast
      refine ⟨c₀, (tr.map Transition.benchmark).dropLast, x, c, hboot, ?_, of_decide_eq_true hfails⟩
      rw [hsplit]
      exact hrun.benchmark
  · cases hfails

/-- The first start of the same task is measured from its release at cycle
10. -/
theorem releaseLatency_measured_first : ∃ c₀ tr x c, Boot .measured c₀
    ∧ BenchmarkRun c₀ (tr ++ [x]) c ∧ x.Starts 0 ∧ releaseBase 0 tr = some 10
    ∧ x.MeasuresFrom 0 (releaseBase 0 tr) := by
  have hsome : ((measuredRun [1, 2] (resumedPreempted.take 9)).any fun r =>
      match (r.1.map Transition.benchmark).getLast? with
      | some x => decide (0 < r.2.kernel.benchmark.taskCount ∧ x.Starts 0
          ∧ releaseBase 0 (r.1.map Transition.benchmark).dropLast = some 10)
        && r.1.all fun y => (y.pre.kernel.tasks 0).state != .suspended
      | none => false) = true := by decide +kernel
  obtain ⟨⟨tr, c⟩, hrun, hstarts⟩ := (Option.any_eq_true _ _).mp hsome
  obtain ⟨c₀, hboot, hrun⟩ := measuredRun_run hrun
  split at hstarts
  · next x hlast =>
      rw [Bool.and_eq_true] at hstarts
      obtain ⟨hi, hstart, hbase⟩ := of_decide_eq_true hstarts.1
      have hsplit := List.dropLast_append_getLast? x hlast
      have hsched : Sched c₀ := Reachable.sched ⟨c₀, [], hboot, .nil⟩
      have hcount : c.kernel.benchmark.taskCount = c₀.kernel.benchmark.taskCount :=
        (hrun.counter hsched).2.1
      have hbenchmark := hrun.benchmark
      rw [← hsplit] at hbenchmark
      refine ⟨c₀, _, x, c, hboot, hbenchmark, hstart, hbase,
        releaseLatency_measured hboot hbenchmark (hcount ▸ hi) fun y hy hreopens => ?_⟩
      -- The task is never suspended.
      obtain ⟨y', hy', rfl⟩ := List.mem_map.mp (List.mem_of_mem_dropLast hy)
      have hne := List.all_eq_true.mp hstarts.2 y' hy'
      exact (bne_iff_ne.mp hne) hreopens.2.1
  · cases hstarts

end JustRT
