import JustRT.StackUsage

/-!
# Activations and the pending count

An activation of a task is released when the task ends a wait, a sleep or a
suspension, and completes when the running task waits, sleeps or suspends
itself. `Activations` counts what a run did to the activations of one task;
the three counters of its benchmark record count the same events, and
`JRT_BenchmarkGetTask` derives the pending count from them. Two kinds of
events spoil the derivation: a release of a task whose activation is still
outstanding, which two counters count and one completion ends, and a
coalesced notification, which is subtracted although no release was counted
for it.
-/

namespace JustRT

/-! ## The report -/

structure JrtTaskBenchmarkInfo where
  releaseCount : UInt32
  completionCount : UInt32
  pendingCount : UInt32
  coalescedCount : UInt32
  maxReleaseLatencyCycles : UInt32
  maxActivationCycles : UInt32
  periodCycles : UInt32
  flags : UInt32
  stackWords : UInt32
  usedStackWords : UInt32
deriving Repr, DecidableEq

/-- The `pending_count` that `JRT_BenchmarkGetTask` derives from a record. -/
def JrtTaskBenchmarkRecord.pendingCount (record : JrtTaskBenchmarkRecord) : UInt32 :=
  if record.completionCount > record.releaseCount
      ∨ record.coalescedCount > record.releaseCount - record.completionCount then 0
  else
    let completedCount := record.completionCount + record.coalescedCount
    record.releaseCount - completedCount

/-- `JRT_BenchmarkGetTask`; `hasInfo` tells whether there is a place for the
report. -/
def jrtBenchmarkGetTask (k : Kernel) (taskId : Nat) (hasInfo : Bool) :
    Except JrtStatus JrtTaskBenchmarkInfo :=
  if !hasInfo then .error .invalidTask
  else if !k.benchmark.initialized then .error .notInitialized
  else if taskId ≥ k.benchmark.taskCount then .error .invalidTask
  else
    let record := k.benchmark.records taskId
    match jrtTaskGetStackInfo k taskId true with
    | .error _ => .error .notInitialized
    | .ok stackInfo =>
        .ok { releaseCount := record.releaseCount
              completionCount := record.completionCount
              pendingCount := record.pendingCount
              coalescedCount := record.coalescedCount
              maxReleaseLatencyCycles := record.maxReleaseLatencyCycles
              maxActivationCycles := record.maxActivationCycles
              periodCycles := record.periodCycles
              flags := (k.tasks taskId).flags
              stackWords := stackInfo.stackWords
              usedStackWords := stackInfo.usedWords }

/-- The count is a truncated difference: no sum in it wraps. -/
theorem toNat_pendingCount (record : JrtTaskBenchmarkRecord) :
    record.pendingCount.toNat = record.releaseCount.toNat
      - (record.completionCount.toNat + record.coalescedCount.toNat) := by
  rw [JrtTaskBenchmarkRecord.pendingCount]
  have hrelease := record.releaseCount.toNat_lt
  by_cases hcompletion : record.completionCount > record.releaseCount
  · have hlt := UInt32.lt_iff_toNat_lt.mp hcompletion
    rw [if_pos (Or.inl hcompletion)]
    show 0 = _
    omega
  have hle := UInt32.not_lt.mp hcompletion
  have hleN := UInt32.le_iff_toNat_le.mp hle
  have hsub : (record.releaseCount - record.completionCount).toNat
      = record.releaseCount.toNat - record.completionCount.toNat := UInt32.toNat_sub_of_le _ _ hle
  by_cases hcoalesced : record.coalescedCount > record.releaseCount - record.completionCount
  · have hlt := UInt32.lt_iff_toNat_lt.mp hcoalesced
    rw [if_pos (Or.inr hcoalesced)]
    show 0 = _
    omega
  have hleC := UInt32.le_iff_toNat_le.mp (UInt32.not_lt.mp hcoalesced)
  have hsum : (record.completionCount + record.coalescedCount).toNat
      = record.completionCount.toNat + record.coalescedCount.toNat := by
    rw [UInt32.toNat_add]
    exact Nat.mod_eq_of_lt
      (show record.completionCount.toNat + record.coalescedCount.toNat < 2 ^ 32 by omega)
  rw [if_neg (not_or.mpr ⟨hcompletion, hcoalesced⟩),
    UInt32.toNat_sub_of_le _ _ (UInt32.le_iff_toNat_le.mpr (by omega)), hsum]

/-! ## The activations of a run -/

/-- What a run did to the activations of one task. `overlapping` counts the
releases while an activation was outstanding. -/
structure Activations where
  outstanding : Bool := false
  releases : Nat := 0
  completions : Nat := 0
  overlapping : Nat := 0
  coalescings : Nat := 0
deriving Repr, DecidableEq

namespace Activations

def release (t : Activations) : Activations :=
  { t with
    outstanding := true
    releases := t.releases + 1
    overlapping := if t.outstanding then t.overlapping + 1 else t.overlapping }

def complete (t : Activations) : Activations :=
  { t with
    outstanding := false
    completions := if t.outstanding then t.completions + 1 else t.completions }

def coalesce (t : Activations) : Activations := { t with coalescings := t.coalescings + 1 }

def events (t : Activations) : Nat := t.releases + t.completions + t.coalescings

end Activations

/-- The activations behind a step that takes the task from `s` to `s'`: a
wait, a sleep or a suspension ends, or the running task waits, sleeps or
suspends itself. -/
def Activations.moved (t : Activations) (s s' : TaskState) : Activations :=
  if s.Idle ∧ ¬s'.Idle then t.release
  else if s = .running ∧ s'.Idle then t.complete
  else t

def Activations.after (i : Nat) (t : Activations) (x : Transition) : Activations :=
  let t := t.moved (x.pre.kernel.tasks i).state (x.post.kernel.tasks i).state
  if x.action.coalesces x.pre i then t.coalesce else t

def activations (i : Nat) (tr : List Transition) : Activations :=
  tr.foldl (Activations.after i) {}

/-- What `JRT_BenchmarkGetTask` reports of task `i` tells whether an
activation is outstanding. -/
def Kernel.PendingTruthful (k : Kernel) (i : Nat) (t : Activations) : Prop :=
  ∃ info, jrtBenchmarkGetTask k i true = .ok info
    ∧ (t.outstanding = true → 1 ≤ info.pendingCount)
    ∧ (t.outstanding = false → info.pendingCount = 0)

/-- The spoiling events do not show: no more coalescings than overlapping
releases while an activation is outstanding, and no fewer while none is. -/
def Activations.Unspoiled (t : Activations) (available : Bool) : Prop :=
  (t.outstanding = true → available = true ∧ t.coalescings ≤ t.overlapping)
    ∧ (t.outstanding = false → available = true → t.overlapping ≤ t.coalescings)

/-! ## Records and activations -/

/-- The record of a task in `state` counts the activations, and knows the
outstanding one. -/
structure JrtTaskBenchmarkRecord.Measures (r : JrtTaskBenchmarkRecord) (state : TaskState)
    (t : Activations) : Prop where
  releaseCount : r.releaseCount = UInt32.ofNat t.releases
  completionCount : r.completionCount = UInt32.ofNat t.completions
  coalescedCount : r.coalescedCount = UInt32.ofNat t.coalescings
  active : r.activationActive = true → t.outstanding = true
  running : state = .running → t.outstanding = true → r.activationActive = true
  waiting : state = .ready ∨ state = .suspended → t.outstanding = true →
    r.activationActive = true ∨ r.releasePending = true
  unreleased : state = .ready ∨ state = .running → t.outstanding = false →
    r.releasePending = false

theorem ofNat_succ_word {w : UInt32} {n : Nat} (h : w = UInt32.ofNat n) :
    w + 1 = UInt32.ofNat (n + 1) := by
  rw [h, UInt32.ofNat_add]
  rfl

theorem TaskState.Idle.ne_ready {s : TaskState} (h : s.Idle) : s ≠ .ready := by
  rintro rfl
  exact absurd h (by decide)

theorem TaskState.Idle.ne_running {s : TaskState} (h : s.Idle) : s ≠ .running := by
  rintro rfl
  exact absurd h (by decide)

namespace JrtTaskBenchmarkRecord.Measures

variable {r : JrtTaskBenchmarkRecord} {state : TaskState} {t : Activations} (now : UInt32)

theorem coalesced (h : r.Measures state t) : r.coalesced.Measures state t.coalesce :=
  { h with coalescedCount := ofNat_succ_word h.coalescedCount }

theorem released (h : r.Measures state t) : (r.released now).Measures .ready t.release where
  releaseCount := ofNat_succ_word h.releaseCount
  completionCount := h.completionCount
  coalescedCount := h.coalescedCount
  active _ := rfl
  running hrun := by cases hrun
  waiting _ _ := Or.inr rfl
  unreleased _ hnone := by cases hnone

/-- The running task's activation is active exactly if it is outstanding. -/
theorem running_iff (h : r.Measures .running t) : r.activationActive = t.outstanding := by
  rw [Bool.eq_iff_iff]
  exact ⟨h.active, h.running rfl⟩

theorem completed (h : r.Measures .running t) (hs : state.Idle) :
    (r.completed now).Measures state t.complete := by
  have hfields : (r.completed now).releaseCount = r.releaseCount
      ∧ (r.completed now).completionCount
        = (if t.outstanding then r.completionCount + 1 else r.completionCount)
      ∧ (r.completed now).coalescedCount = r.coalescedCount
      ∧ (r.completed now).activationActive = false := by
    rw [JrtTaskBenchmarkRecord.completed, h.running_iff]
    cases hout : t.outstanding with
    | true => exact ⟨rfl, rfl, rfl, rfl⟩
    | false => exact ⟨rfl, rfl, rfl, h.running_iff.trans hout⟩
  obtain ⟨hreleases, hcompletions, hcoalescings, hinactive⟩ := hfields
  refine ⟨hreleases.trans h.releaseCount, ?_, hcoalescings.trans h.coalescedCount, ?_, ?_, ?_, ?_⟩
  · rw [hcompletions, Activations.complete]
    split
    · exact ofNat_succ_word h.completionCount
    · exact h.completionCount
  · rw [hinactive]
    intro hno
    cases hno
  · exact fun hrun => absurd hrun hs.ne_running
  · intro _ hout
    cases hout
  · rintro (hready | hrun)
    · exact absurd hready hs.ne_ready
    · exact absurd hrun hs.ne_running

theorem yielded (h : r.Measures .running t) : r.Measures .ready t :=
  { h with
    running := fun hno => by cases hno
    waiting := fun _ hout => Or.inl (h.running rfl hout)
    unreleased := fun _ => h.unreleased (Or.inr rfl) }

theorem setAside (h : r.Measures .ready t) : r.Measures .suspended t :=
  { h with
    running := fun hno => by cases hno
    waiting := fun _ => h.waiting (Or.inl rfl)
    unreleased := fun hno => by rcases hno with hno | hno <;> cases hno }

theorem started (h : r.Measures .ready t) : (r.started now).Measures .running t := by
  rw [JrtTaskBenchmarkRecord.started]
  split
  · next hstarts =>
      rw [Bool.and_eq_true, Bool.not_eq_true'] at hstarts
      -- A release is pending, so the activation is outstanding.
      have hout : t.outstanding = true := by
        cases hout : t.outstanding with
        | true => rfl
        | false =>
            have hnone := h.unreleased (Or.inl rfl) hout
            rw [hstarts.1] at hnone
            cases hnone
      refine ⟨h.releaseCount, h.completionCount, h.coalescedCount, fun _ => hout,
        fun _ _ => rfl, fun _ _ => Or.inl rfl, fun _ hno => ?_⟩
      exact absurd (hout.symm.trans hno) (by decide)
  · next hstarts =>
      refine { h with running := fun _ hout => ?_, waiting := ?_, unreleased := ?_ }
      · rcases h.waiting (Or.inl rfl) hout with hactive | hpending
        · exact hactive
        · cases hactive : r.activationActive with
          | true => rfl
          | false =>
              rw [hpending, hactive] at hstarts
              exact absurd rfl hstarts
      · rintro (hno | hno) <;> cases hno
      · exact fun _ => h.unreleased (Or.inl rfl)

end JrtTaskBenchmarkRecord.Measures

/-! ## Meters and activations -/

/-- A task's meter, behind a run with the activations `t`. -/
structure Meter.Follows (m : Meter) (available : Bool) (t : Activations) : Prop where
  balance : t.releases = t.completions + t.outstanding.toNat + t.overlapping
  waits : m.state = .blocked ∨ m.state = .sleeping → t.outstanding = false
  clear : available = false → m.record.Clear
  measured : available = true → m.record.Measures m.state t

theorem CycleCounter.apply_eq (c : CycleCounter)
    (f : JrtTaskBenchmarkRecord → UInt32 → JrtTaskBenchmarkRecord) (r : JrtTaskBenchmarkRecord) :
    (c.available = false → c.apply f r = r) ∧ (c.available = true → c.apply f r = f r c.now) := by
  rw [CycleCounter.apply]
  constructor
  · intro h
    rw [h]
    rfl
  · intro h
    rw [if_pos h]

namespace Meter.Follows

variable {m m' : Meter} {t t' : Activations} {c : CycleCounter}

/-- A hook `f` is applied, and the task goes to `state`. -/
theorem hooked (h : m.Follows c.available t)
    (f : JrtTaskBenchmarkRecord → UInt32 → JrtTaskBenchmarkRecord) {state : TaskState}
    (hbalance : t'.releases = t'.completions + t'.outstanding.toNat + t'.overlapping)
    (hwaits : state = .blocked ∨ state = .sleeping → t'.outstanding = false)
    (hmeasured : m.record.Measures m.state t → (f m.record c.now).Measures state t') :
    ((m.apply c f).withState state).Follows c.available t' where
  balance := hbalance
  waits := hwaits
  clear hc := by
    show (c.apply f m.record).Clear
    rw [(c.apply_eq f m.record).1 hc]
    exact h.clear hc
  measured hc := by
    show (c.apply f m.record).Measures state t'
    rw [(c.apply_eq f m.record).2 hc]
    exact hmeasured (h.measured hc)

theorem coalesce (h : m.Follows c.available t) : (m.coalesce c).Follows c.available t.coalesce :=
  h.hooked (fun r _ => r.coalesced) h.balance h.waits fun hm => hm.coalesced

theorem moves (h : m.Follows c.available t) (hm : m.Moves c m') :
    m'.Follows c.available (t.moved m.state m'.state) := by
  cases hm with
  | kept =>
      have hsame : t.moved m.state m.state = t := by
        cases m.state <;> rfl
      rw [hsame]
      exact h
  | released hidle =>
      have hreleased : t.moved m.state (m.release c).state = t.release :=
        if_pos ⟨hidle, fun hno => hno.ne_ready rfl⟩
      rw [hreleased]
      refine h.hooked JrtTaskBenchmarkRecord.released ?_ (fun hno => ?_) (fun hm => hm.released c.now)
      · have hbalance := h.balance
        cases hout : t.outstanding <;> simp [Activations.release, hout] at hbalance ⊢ <;> omega
      · rcases hno with hno | hno <;> cases hno
  | @completed state hrun hidle =>
      have hcompleted : t.moved m.state (m.complete c state).state = t.complete := by
        rw [Activations.moved, if_neg fun hno => hno.1.ne_running hrun]
        exact if_pos ⟨hrun, hidle⟩
      rw [hcompleted]
      refine h.hooked JrtTaskBenchmarkRecord.completed ?_ (fun _ => rfl) (fun hm => ?_)
      · have hbalance := h.balance
        cases hout : t.outstanding <;> simp [Activations.complete, hout] at hbalance ⊢ <;> omega
      · rw [hrun] at hm
        exact hm.completed c.now hidle
  | yielded hrun =>
      have hkept : t.moved m.state (m.withState .ready).state = t := by
        rw [hrun]
        rfl
      rw [hkept]
      refine ⟨h.balance, fun hno => ?_, h.clear, fun hc => ?_⟩
      · rcases hno with hno | hno <;> cases hno
      · have hm := h.measured hc
        rw [hrun] at hm
        exact hm.yielded
  | setAside hready =>
      have hkept : t.moved m.state (m.withState .suspended).state = t := by
        rw [hready]
        rfl
      rw [hkept]
      refine ⟨h.balance, fun hno => ?_, h.clear, fun hc => ?_⟩
      · rcases hno with hno | hno <;> cases hno
      · have hm := h.measured hc
        rw [hready] at hm
        exact hm.setAside

theorem demoted (h : m.Follows c.available t) (hrecord : m'.record = m.record)
    (hstate : m'.state = m.state.demoted) : m'.Follows c.available t := by
  have hwaits : m'.state = .blocked ∨ m'.state = .sleeping → t.outstanding = false := by
    intro hno
    rw [hstate] at hno
    refine h.waits ?_
    cases hm : m.state <;> rw [hm] at hno <;> simp [TaskState.demoted] at hno ⊢
  refine ⟨h.balance, hwaits, hrecord ▸ h.clear, fun hc => ?_⟩
  have hmeasured := h.measured hc
  rw [hrecord, hstate]
  by_cases hrun : m.state = .running
  · rw [hrun] at hmeasured ⊢
    exact hmeasured.yielded
  · rw [demoted_of_ne hrun]
    exact hmeasured

theorem install (h : m.Follows c.available t) (hready : m.state = .ready) :
    (m.install c).Follows c.available t := by
  refine h.hooked JrtTaskBenchmarkRecord.started h.balance (fun hno => ?_) (fun hm => ?_)
  · rcases hno with hno | hno <;> cases hno
  · rw [hready] at hm
    exact hm.started c.now

end Meter.Follows

theorem Activations.moved_demoted (t : Activations) (s : TaskState) : t.moved s s.demoted = t := by
  cases s <;> rfl

theorem Activations.moved_running (t : Activations) {s : TaskState} (h : s.demoted = .ready) :
    t.moved s .running = t := by
  cases s <;> first | rfl | cases h

theorem Meter.install_state (m : Meter) (c : CycleCounter) : (m.install c).state = .running := rfl

/-! ## Runs -/

theorem StepCases.follows {c c' : Cfg} {a : Action} {o : Observation} (h : StepCases c a c' o)
    (hsched : Sched c) {i : Nat} (hi : i < c.kernel.taskCount) {t : Activations}
    (ht : (c.kernel.meter i).Follows c.kernel.counter.available t) :
    (c'.kernel.meter i).Follows c'.kernel.counter.available (t.after i ⟨c, a, o, c'⟩) := by
  have havailable : c'.kernel.counter.available = c.kernel.counter.available := by
    rw [h.counter hsched]
    cases a <;> rfl
  have hsteps := h.meter_steps hsched hi
  rw [havailable]
  have hafter : t.after i ⟨c, a, o, c'⟩
      = if a.coalesces c i then (t.moved (c.kernel.meter i).state (c'.kernel.meter i).state).coalesce
        else t.moved (c.kernel.meter i).state (c'.kernel.meter i).state := rfl
  rw [hafter]
  generalize c'.kernel.meter i = m' at hsteps
  cases hsteps with
  | moved hnone hmoves =>
      rw [if_neg hnone]
      exact ht.moves hmoves
  | coalesced hcoalesces hmoves =>
      rw [if_pos hcoalesces]
      exact (ht.moves hmoves).coalesce
  | demoted hnone hrecord hstate =>
      rw [if_neg hnone, hstate, Activations.moved_demoted]
      exact ht.demoted hrecord hstate
  | started hnone hrecord hstate hready =>
      have hstarting := (ht.demoted hrecord hstate).install hready
      rw [hstate] at hready
      rw [if_neg hnone, Meter.install_state, Activations.moved_running _ hready]
      exact hstarting

theorem Run.follows {img : Image} {c₀ c : Cfg} {tr : List Transition} (hboot : Boot img c₀)
    (hrun : Run c₀ tr c) {i : Nat} (hi : i < c₀.kernel.taskCount) :
    (c.kernel.meter i).Follows c.kernel.counter.available (activations i tr) := by
  have hsched : Sched c₀ := Reachable.sched ⟨c₀, [], hboot, .nil⟩
  induction hrun with
  | nil =>
      obtain ⟨-, -, -, hfresh⟩ := hboot.meter
      have hclear := (hfresh i hi).2
      refine ⟨rfl, fun _ => rfl, fun _ => hclear, fun _ => ?_⟩
      refine ⟨hclear.releaseCount, hclear.completionCount, hclear.coalescedCount, fun hno => ?_,
        fun _ hno => ?_, fun _ hno => ?_, fun _ _ => hclear.releasePending⟩
      · exact absurd (hno.symm.trans hclear.activationActive) (by decide)
      · cases hno
      · cases hno
  | @snoc tr c₁ c₂ a o hrun hstep ih =>
      have hs : Sched c₁ := Reachable.sched ⟨c₀, tr, hboot, hrun⟩
      have hafter := (step_cases hstep).follows hs (hrun.taskCount ▸ hi) ih
      rw [activations, List.foldl_append]
      exact hafter

/-- The count that `JRT_BenchmarkGetTask` derives. -/
theorem JrtTaskBenchmarkRecord.Measures.pendingCount {r : JrtTaskBenchmarkRecord}
    {state : TaskState} {t : Activations} (h : r.Measures state t) (hevents : t.events < 2 ^ 32)
    (hbalance : t.releases = t.completions + t.outstanding.toNat + t.overlapping) :
    r.pendingCount.toNat = t.outstanding.toNat + t.overlapping - t.coalescings := by
  rw [Activations.events] at hevents
  have hword : ∀ n < 2 ^ 32, (UInt32.ofNat n).toNat = n := fun n hn =>
    UInt32.toNat_ofNat_of_lt' hn
  rw [toNat_pendingCount, h.releaseCount, h.completionCount, h.coalescedCount, hword _ (by omega),
    hword _ (by omega), hword _ (by omega)]
  omega

theorem JrtTaskBenchmarkRecord.Clear.pendingCount {r : JrtTaskBenchmarkRecord} (h : r.Clear) :
    r.pendingCount = 0 := by
  rw [JrtTaskBenchmarkRecord.pendingCount, h.releaseCount, h.completionCount, h.coalescedCount]
  rfl

theorem jrtBenchmarkGetTask_ok {k : Kernel} {i : Nat} (hinit : k.benchmark.initialized = true)
    (hlt : i < k.benchmark.taskCount) (hi : i < k.taskCount) :
    ∃ info, jrtBenchmarkGetTask k i true = .ok info
      ∧ info.pendingCount = (k.benchmark.records i).pendingCount := by
  simp only [jrtBenchmarkGetTask, hinit, jrtTaskGetStackInfo_ok hi]
  rw [if_neg (by decide), if_neg (by decide), if_neg (Nat.not_le.mpr hlt)]
  exact ⟨_, rfl, rfl⟩

/-- In every run from initialisation with fewer than `2 ^ 32` events, a
blocked or sleeping task has no outstanding activation, and the pending count
tells whether a task has one exactly if the spoiling events do not show. -/
theorem pendingCount_truthful_iff {img : Image} {c₀ c : Cfg} {tr : List Transition}
    (hboot : Boot img c₀) (hrun : Run c₀ tr c) {i : Nat}
    (hi : i < c₀.kernel.benchmark.taskCount) (hevents : (activations i tr).events < 2 ^ 32) :
    ((c.kernel.tasks i).state = .blocked ∨ (c.kernel.tasks i).state = .sleeping →
        (activations i tr).outstanding = false)
      ∧ (c.kernel.PendingTruthful i (activations i tr)
        ↔ (activations i tr).Unspoiled img.cycleCounterAvailable) := by
  have hsched : Sched c₀ := Reachable.sched ⟨c₀, [], hboot, .nil⟩
  obtain ⟨havailable₀, hcount₀, hinit₀, -⟩ := hboot.meter
  obtain ⟨havailable, hcount, hinit⟩ := hrun.counter hsched
  have hi₀ : i < c₀.kernel.taskCount := by
    have hcount := hsched.count
    change c₀.kernel.benchmark.taskCount = _ at hcount₀
    omega
  have hfollows := hrun.follows hboot hi₀
  have hlt : i < c.kernel.benchmark.taskCount := by
    change c.kernel.benchmark.taskCount = c₀.kernel.benchmark.taskCount at hcount
    rw [hcount]
    exact hi
  obtain ⟨info, hinfo, hpending⟩ :=
    jrtBenchmarkGetTask_ok (hinit.trans hinit₀) hlt (hrun.taskCount ▸ hi₀)
  refine ⟨hfollows.waits, ?_⟩
  have htruthful : c.kernel.PendingTruthful i (activations i tr)
      ↔ ((activations i tr).outstanding = true → 1 ≤ info.pendingCount)
        ∧ ((activations i tr).outstanding = false → info.pendingCount = 0) := by
    constructor
    · rintro ⟨info', hinfo', h⟩
      obtain rfl := Except.ok.inj (hinfo.symm.trans hinfo')
      exact h
    · exact fun h => ⟨info, hinfo, h⟩
  rw [htruthful, hpending, Activations.Unspoiled, ← havailable₀, ← havailable]
  cases hcounter : c.kernel.counter.available with
  | false =>
      have hclear := (hfollows.clear hcounter).pendingCount
      change (c.kernel.benchmark.records i).pendingCount = 0 at hclear
      rw [hclear]
      simp
  | true =>
      have hcounted := (hfollows.measured hcounter).pendingCount hevents hfollows.balance
      change (c.kernel.benchmark.records i).pendingCount.toNat = _ at hcounted
      rw [UInt32.le_iff_toNat_le, ← UInt32.toNat_inj, hcounted]
      cases (activations i tr).outstanding
      · simp
        omega
      · simp
        omega

/-! ## A spoiled count -/

/-- The sample image on a core with a cycle counter. -/
def Image.measured : Image := { Image.sample with cycleCounterAvailable := true }

def measuredRun (priorities : List Nat) (actions : List Action) :
    Option (List Transition × Cfg) :=
  match jrtKernelInit .measured (.zero 0) (some (.sample priorities)) with
  | .ok (.ok, k) => runActions (bootCfg k) actions
  | _ => none

theorem measuredRun_run {priorities : List Nat} {actions : List Action} {tr : List Transition}
    {c : Cfg} (h : measuredRun priorities actions = some (tr, c)) :
    ∃ c₀, Boot .measured c₀ ∧ Run c₀ tr c := by
  unfold measuredRun at h
  split at h
  · next k hinit => exact ⟨bootCfg k, ⟨_, _, k, hinit, rfl⟩, runActions_run h⟩
  · cases h

/-- The task sleeps, is released by the tick and runs; a handler notifies it
twice. -/
def notifiedTwice : List Action :=
  [.start, .call (.taskDelay 1), .pendsv (sampleSp 0), .tick, .pendsv 0x20410024,
    .isr (.taskNotifyFromIsr 0 1), .isr (.taskNotifyFromIsr 0 1)]

/-- The second notification coalesces, and takes the outstanding activation out
of the count. -/
theorem pendingCount_truthful_fails : ∃ c₀ tr c, Boot .measured c₀ ∧ Run c₀ tr c
    ∧ (activations 0 tr).events < 2 ^ 32 ∧ (activations 0 tr).outstanding = true
    ∧ ∃ info, jrtBenchmarkGetTask c.kernel 0 true = .ok info ∧ info.pendingCount = 0 := by
  have hsome : ((measuredRun [2] notifiedTwice).any fun r =>
      passes (jrtBenchmarkGetTask r.2.kernel 0 true) fun info =>
        decide ((activations 0 r.1).events < 2 ^ 32
          ∧ (activations 0 r.1).outstanding = true ∧ info.pendingCount = 0)) = true := by
    decide +kernel
  obtain ⟨⟨tr, c⟩, hrun, hfails⟩ := (Option.any_eq_true _ _).mp hsome
  obtain ⟨c₀, hboot, hrun⟩ := measuredRun_run hrun
  obtain ⟨info, hinfo, hfails⟩ := passes_eq_true.mp hfails
  obtain ⟨hevents, hout, hpending⟩ := of_decide_eq_true hfails
  exact ⟨c₀, tr, c, hboot, hrun, hevents, hout, info, hinfo, hpending⟩

/-- Before the notifications the count is right. -/
theorem pendingCount_truthful_released : ∃ c₀ tr c, Boot .measured c₀ ∧ Run c₀ tr c
    ∧ (activations 0 tr).outstanding = true
    ∧ c.kernel.PendingTruthful 0 (activations 0 tr) := by
  have hsome : ((measuredRun [2] (notifiedTwice.take 5)).any fun r =>
      decide (0 < r.2.kernel.benchmark.taskCount ∧ (activations 0 r.1).events < 2 ^ 32
        ∧ (activations 0 r.1).outstanding = true ∧ (activations 0 r.1).coalescings = 0)) = true := by
    decide +kernel
  obtain ⟨⟨tr, c⟩, hrun, hcounts⟩ := (Option.any_eq_true _ _).mp hsome
  obtain ⟨hi, hevents, hout, hcoalescings⟩ := of_decide_eq_true hcounts
  obtain ⟨c₀, hboot, hrun⟩ := measuredRun_run hrun
  have hsched : Sched c₀ := Reachable.sched ⟨c₀, [], hboot, .nil⟩
  have hcount : c.kernel.benchmark.taskCount = c₀.kernel.benchmark.taskCount :=
    (hrun.counter hsched).2.1
  refine ⟨c₀, tr, c, hboot, hrun, hout,
    (pendingCount_truthful_iff hboot hrun (hcount ▸ hi) hevents).2.mpr ⟨fun _ => ⟨rfl, ?_⟩, ?_⟩⟩
  · rw [hcoalescings]
    exact Nat.zero_le _
  · intro hno
    exact absurd (hout.symm.trans hno) (by decide)

end JustRT
