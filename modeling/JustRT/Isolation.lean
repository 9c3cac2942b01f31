import JustRT.Config

/-!
# Isolation of private regions

The two dynamic regions in every reachable state: they describe the
private range and the stack guard of the current task, whatever was
switched before and whichever register writes were skipped. With the
disjointness a valid table has, the private region covers no byte of
another task's region, of any stack or guard, or of the internal tasks'
storage.
-/

namespace JustRT

/-! ## Ranges of a task -/

def TaskSetup.privateRange (s : TaskSetup) : Set Nat :=
  Set.Ico s.privateDataBase.toNat (s.privateDataBase.toNat + s.privateDataSize.toNat)

def TaskSetup.stackRange (s : TaskSetup) : Set Nat :=
  Set.Ico (s.stackBottom - 32).toNat s.stackTop.toNat

/-- An internal task's guard is the start of its storage. -/
theorem toNat_storageGuard (storage : UInt32) : (storage + 32 - 32).toNat = storage.toNat :=
  congrArg UInt32.toNat (UInt32.add_sub_cancel storage 32)

section Table

variable {img : Image} {tasks : Nat → JrtTaskDefinition} {taskCount i j : Nat}

theorem setups_app (hi : i < taskCount) : img.setups tasks taskCount i = (tasks i).setup :=
  if_pos hi

theorem setups_internal (hi : taskCount ≤ i) :
    (img.setups tasks taskCount i).privateRange = ∅ := by
  rw [Image.setups, if_neg (Nat.not_lt.mpr hi)]
  split
  · exact Set.Ico_self _
  · exact Set.Ico_self _

/-- A stack range in the table is that of a definition, or the storage of
an internal task. -/
theorem setups_stackRange (himg : img.Linked) (h : ValidTable img tasks taskCount) :
    (i < taskCount ∧ (img.setups tasks taskCount i).stackRange = (tasks i).stackRange)
      ∨ (img.setups tasks taskCount i).stackRange = img.timerServiceRange
      ∨ (img.setups tasks taskCount i).stackRange = img.idleRange := by
  rw [Image.setups]
  split
  · next hi =>
      refine Or.inl ⟨hi, ?_⟩
      rw [(h.stack i hi).stackRange_eq, ← (h.guard_aligned hi).1]
      rfl
  · split
    · refine Or.inr (Or.inl ?_)
      simp only [TaskSetup.stackRange, Image.timerServiceSetup, Image.timerServiceRange,
        toNat_storageGuard, toNat_storageEnd himg.service_end]
    · refine Or.inr (Or.inr ?_)
      simp only [TaskSetup.stackRange, Image.idleSetup, Image.idleRange, toNat_storageGuard,
        toNat_storageEnd himg.idle_end]

/-- Every private range of the table can be mapped, and every guard. -/
theorem setups_mappable (himg : img.Linked) (h : ValidTable img tasks taskCount) (i : Nat) :
    Mappable (img.setups tasks taskCount i).privateDataBase
        (img.setups tasks taskCount i).privateDataSize
      ∧ 32 ∣ ((img.setups tasks taskCount i).stackBottom - 32).toNat := by
  rw [Image.setups]
  split
  · next hi =>
      refine ⟨h.mappable hi, ?_⟩
      rw [(h.guard_aligned hi).1]
      exact (h.guard_aligned hi).2.1
  · split
    · refine ⟨Or.inl rfl, ?_⟩
      rw [Image.timerServiceSetup, toNat_storageGuard]
      exact himg.service_aligned
    · refine ⟨Or.inl rfl, ?_⟩
      rw [Image.idleSetup, toNat_storageGuard]
      exact himg.idle_aligned

/-- A private region of the table shares no byte with what is not its own. -/
theorem setups_isolated (himg : img.Linked) (h : ValidTable img tasks taskCount) :
    (j ≠ i → Disjoint (img.setups tasks taskCount i).privateRange
        (img.setups tasks taskCount j).privateRange)
      ∧ Disjoint (img.setups tasks taskCount i).privateRange
        (img.setups tasks taskCount j).stackRange
      ∧ Disjoint (img.setups tasks taskCount i).privateRange img.timerServiceRange
      ∧ Disjoint (img.setups tasks taskCount i).privateRange img.idleRange := by
  rcases Nat.lt_or_ge i taskCount with hi | hi
  · rw [setups_app hi]
    have hservice := h.region_service i hi
    have hidle := h.region_idle i hi
    refine ⟨fun hne => ?_, ?_, hservice, hidle⟩
    · rcases Nat.lt_or_ge j taskCount with hj | hj
      · rw [setups_app hj]
        exact h.region_disjoint i hi j hj hne.symm
      · rw [setups_internal hj]
        exact Set.disjoint_empty _
    · rcases setups_stackRange himg h (i := j) with ⟨hj, heq⟩ | heq | heq
      · rw [heq]
        exact h.region_stack i hi j hj
      · rw [heq]
        exact hservice
      · rw [heq]
        exact hidle
  · rw [setups_internal hi]
    exact ⟨fun _ => Set.empty_disjoint _, Set.empty_disjoint _, Set.empty_disjoint _,
      Set.empty_disjoint _⟩

end Table

/-! ## The invariant -/

/-- The table's setups come from a valid configuration, and what the port last
set is what the current task needs. The port remembers the bases and sizes it
wrote and skips a write that changes nothing; `coherent` says that what it
remembers is what the unit has. -/
structure Isolated (img : Image) (tasks : Nat → JrtTaskDefinition) (c : Cfg) : Prop where
  table : ValidTable img tasks c.kernel.applicationTaskCount
  setups : ∀ i < c.kernel.taskCount, (c.kernel.tasks i).setup
    = img.setups tasks c.kernel.applicationTaskCount i
  coherent : c.kernel.mpu.hasMpu = true → c.kernel.mpu.Coherent
  enabled : c.kernel.mpu.hasMpu = true → c.kernel.mpu.ctrl = mpuCtrlEnable ||| mpuCtrlPrivdefena
  statics : c.kernel.mpu.hasMpu = true →
    ∀ row ∈ img.sections.staticMap, Mapped (c.kernel.mpu.region row.1) row.2.1 row.2.2
  privateDataBase : c.kernel.mpu.gMpuPrivateDataBase
    = (c.kernel.tasks c.kernel.currentTask).privateDataBase
  privateDataSize : c.kernel.mpu.gMpuPrivateDataSize
    = (c.kernel.tasks c.kernel.currentTask).privateDataSize
  stackGuard : c.kernel.mpu.gMpuStackGuardBase
    = taskStackGuard (c.kernel.tasks c.kernel.currentTask)

/-- Only a context switch writes the memory protection unit. -/
theorem StepCases.mpu_eq {c c' : Cfg} {a : Action} {o : Observation} (h : StepCases c a c' o)
    (ha : ∀ sp, a ≠ .pendsv sp) :
    c'.kernel.mpu = c.kernel.mpu ∧ c'.kernel.currentTask = c.kernel.currentTask := by
  cases h with
  | start _ hk =>
      obtain rfl := jrtKernelStart_spec hk
      exact ⟨rfl, rfl⟩
  | thread _ _ hseg => exact ⟨hseg.frame.2.2.2.2.2.2.2.2.1, hseg.frame.2.2.2.1⟩
  | tick _ hk =>
      have hframe := tickTasks_frame hk
      exact ⟨hframe.2.2.2.2.2.2.2.2.2.2.2.2.2.1, hframe.2.2.2.1⟩
  | isr =>
      have hframe := isrCall_frame c.kernel ‹_›
      exact ⟨hframe.2.2.2.2.2.2.2.2.1, hframe.2.2.2.1⟩
  | @pendsv currentSp => exact absurd rfl (ha currentSp)
  | store => exact ⟨rfl, rfl⟩
  | cycles => exact ⟨rfl, rfl⟩

/-- A context switch calls both setters for the task it selects, and
returns that task's stack pointer. -/
theorem pendsvSwitch_install {k k' : Kernel} {currentSp sp : Ptr}
    (h : pendsvSwitch k currentSp = .ok (sp, k')) :
    sp = (k'.tasks k'.currentTask).sp ∧ k'.memory = k.memory
      ∧ ∃ mpu, archSetTaskPrivateData k.mpu (k'.tasks k'.currentTask).privateDataBase
          (k'.tasks k'.currentTask).privateDataSize = .ok mpu
        ∧ k'.mpu = archSetTaskStackGuard mpu (taskStackGuard (k'.tasks k'.currentTask)) := by
  simp only [pendsvSwitch, exec_bind_eq_ok] at h
  obtain ⟨k₁, hsave, k₂, hinstall, h⟩ := h
  obtain ⟨rfl, rfl⟩ := Prod.mk.inj (Except.ok.inj h)
  obtain ⟨hframe, -⟩ := pendsvSave_spec hsave
  simp only [TableFrame] at hframe
  simp only [pendsvInstall, exec_bind_eq_ok] at hinstall
  obtain ⟨mpu, hmpu, hinstall⟩ := hinstall
  obtain rfl := Except.ok.inj hinstall
  refine ⟨rfl, ?_, mpu, ?_, rfl⟩
  · exact hframe.2.2.2.2.2.2.2.2.2.2.2.2.2.2.2.2
  · rw [← hframe.2.2.2.2.2.2.2.2.2.2.2.2.2.2.2.1]
    exact hmpu

namespace Isolated

variable {img : Image} {tasks : Nat → JrtTaskDefinition} {c c' : Cfg} {a : Action}
  {o : Observation}

theorem step (himg : img.Linked) (h : Isolated img tasks c) (hs : Sched c)
    (hstep : StepCases c a c' o) : Isolated img tasks c' := by
  have hs' : Sched c' := hs.step hstep
  have hcount := hstep.taskCount
  have happ : c'.kernel.applicationTaskCount = c.kernel.applicationTaskCount := by
    have h₁ := hs.count
    have h₂ := hs'.count
    omega
  have hsetups : ∀ i < c'.kernel.taskCount, (c'.kernel.tasks i).setup
      = img.setups tasks c'.kernel.applicationTaskCount i := by
    intro i hi
    rw [hcount] at hi
    rw [happ]
    exact (hstep.setup i).trans (h.setups i hi)
  have htable : ValidTable img tasks c'.kernel.applicationTaskCount := happ ▸ h.table
  by_cases ha : ∃ sp, a = .pendsv sp
  · obtain ⟨currentSp, rfl⟩ := ha
    cases hstep with
    | thread _ _ hseg => cases hseg
    | @pendsv _ sp k _ _ hk =>
        obtain ⟨-, -, mpu, hdata, hmpu⟩ := pendsvSwitch_install hk
        have hlt : k.currentTask < k.taskCount := by
          have hcur := hs'.current_lt
          rwa [← hs'.currentTask] at hcur
        have hsetup := hsetups k.currentTask hlt
        obtain ⟨hmap, hguard⟩ := setups_mappable himg htable k.currentTask
        rw [← hsetup] at hmap hguard
        obtain ⟨mpu', hdata', hhas, hctrl, hbase, hsize, hcache, hlow, hcoherent⟩ :=
          dynamicRegions_spec c.kernel.mpu hmap hguard
        obtain rfl : mpu' = mpu := Except.ok.inj (hdata'.symm.trans hdata)
        change k.mpu = archSetTaskStackGuard mpu'
          ((k.tasks k.currentTask).setup.stackBottom - 32) at hmpu
        refine { table := htable, setups := hsetups, coherent := ?_, enabled := ?_, statics := ?_,
                 privateDataBase := ?_, privateDataSize := ?_, stackGuard := ?_ }
        all_goals simp only [hmpu]
        · intro hhas'
          rw [hhas] at hhas'
          have hbefore := h.coherent hhas'
          exact hcoherent hhas' hbefore.privateData fun heq => heq ▸ hbefore.stackGuard
        · intro hhas'
          rw [hhas] at hhas'
          exact hctrl.trans (h.enabled hhas')
        · intro hhas' row hrow
          rw [hhas] at hhas'
          rw [hlow row.1 (Nat.lt_of_le_of_lt (staticMap_region_le hrow) (by decide))]
          exact h.statics hhas' row hrow
        · exact hbase
        · exact hsize
        · exact hcache
  · have hno : ∀ sp, a ≠ .pendsv sp := fun sp heq => ha ⟨sp, heq⟩
    obtain ⟨hmpu, hcur⟩ := hstep.mpu_eq hno
    have hsetup := hstep.setup c.kernel.currentTask
    refine { table := htable, setups := hsetups, coherent := ?_, enabled := ?_, statics := ?_,
             privateDataBase := ?_, privateDataSize := ?_, stackGuard := ?_ }
    · rw [hmpu]
      exact h.coherent
    · rw [hmpu]
      exact h.enabled
    · rw [hmpu]
      exact h.statics
    · rw [hmpu, hcur]
      exact h.privateDataBase.trans (congrArg TaskSetup.privateDataBase hsetup).symm
    · rw [hmpu, hcur]
      exact h.privateDataSize.trans (congrArg TaskSetup.privateDataSize hsetup).symm
    · rw [hmpu, hcur]
      exact h.stackGuard.trans (congrArg (fun s => s.stackBottom - 32) hsetup).symm

/-- `JRT_KernelInit` leaves the unit set for the first task. -/
theorem boot (himg : img.Linked) (h : Boot img c) : ∃ tasks, Isolated img tasks c := by
  obtain ⟨k₀, config, k, hinit, rfl⟩ := h
  obtain ⟨tasks, -, hpos, -, hdefinitions, hregions, hsetUp⟩ := jrtKernelInit_cases hinit
  have hbooted := jrtKernelInit_booted hinit
  have htable := (validTable_iff himg tasks config.taskCount).mp ⟨hdefinitions, hregions⟩
  obtain ⟨happ, hledger⟩ := kernelSetUp_ledger hsetUp
  obtain ⟨mpu, hmpu, hmpuEq, -⟩ := kernelSetUp_cases hsetUp
  obtain ⟨mpu', hmpu', hhas, hbase, hsize, hguard, hon⟩ :=
    htable.configureMpu (k := k₀) himg hpos
  obtain rfl : mpu' = mpu := Except.ok.inj (hmpu'.symm.trans hmpu)
  have hfirst : (k.tasks 0).setup = (tasks 0).setup := by
    have h0 := congrArg TaskLedger.setup (hledger 0 (by omega))
    exact h0.trans (setups_app hpos)
  have hcurrent : k.currentTask = 0 := hbooted.currentTask
  refine ⟨tasks, ?_, ?_, ?_, ?_, ?_, ?_, ?_, ?_⟩
  · change ValidTable img tasks k.applicationTaskCount
    rw [happ]
    exact htable
  · intro i hi
    change i < k.taskCount at hi
    rw [hbooted.taskCount_eq, happ] at hi
    change (k.tasks i).setup = img.setups tasks k.applicationTaskCount i
    rw [happ]
    exact congrArg TaskLedger.setup (hledger i hi)
  · intro hm
    change k.mpu.hasMpu = true at hm
    rw [hmpuEq, hhas] at hm
    change k.mpu.Coherent
    rw [hmpuEq]
    exact (hon hm).1
  · intro hm
    change k.mpu.hasMpu = true at hm
    rw [hmpuEq, hhas] at hm
    change k.mpu.ctrl = _
    rw [hmpuEq]
    exact (hon hm).2.1
  · intro hm
    change k.mpu.hasMpu = true at hm
    rw [hmpuEq, hhas] at hm
    change ∀ row ∈ img.sections.staticMap, Mapped (k.mpu.region row.1) row.2.1 row.2.2
    rw [hmpuEq]
    exact (hon hm).2.2
  · change k.mpu.gMpuPrivateDataBase = (k.tasks k.currentTask).privateDataBase
    rw [hmpuEq, hbase, hcurrent]
    exact (congrArg TaskSetup.privateDataBase hfirst).symm
  · change k.mpu.gMpuPrivateDataSize = (k.tasks k.currentTask).privateDataSize
    rw [hmpuEq, hsize, hcurrent]
    exact (congrArg TaskSetup.privateDataSize hfirst).symm
  · change k.mpu.gMpuStackGuardBase = taskStackGuard (k.tasks k.currentTask)
    rw [hmpuEq, hguard, hcurrent, ← (htable.guard_aligned hpos).1]
    exact (congrArg (fun s => s.stackBottom - 32) hfirst).symm

end Isolated

theorem Reachable.isolated {img : Image} (himg : img.Linked) {c : Cfg} (h : Reachable img c) :
    ∃ tasks, Isolated img tasks c := by
  obtain ⟨c₀, tr, hboot, hrun⟩ := h
  obtain ⟨tasks, h₀⟩ := Isolated.boot himg hboot
  have hs₀ : Sched c₀ := Reachable.sched ⟨c₀, [], hboot, .nil⟩
  have hboth := hrun.induction (fun c => Sched c ∧ Isolated img tasks c)
    (fun h hstep => ⟨h.1.step hstep, h.2.step himg h.1 hstep⟩) ⟨hs₀, h₀⟩
  exact ⟨tasks, hboth.2⟩

/-! ## The theorem -/

/-- In every reachable state of a system with a memory protection unit, so
in particular whenever a context switch has returned: the unit is enabled,
region 14 describes the private range of the current task and region 15
its 32-byte stack guard, and region 14 covers no byte of another task's
private region, of any task's guard or stack, or of the storage of the
internal tasks. -/
theorem dynamic_regions_exact {img : Image} (himg : img.Linked) {c : Cfg}
    (h : Reachable img c) (hmpu : c.kernel.mpu.hasMpu = true) :
    c.kernel.mpu.ctrl = mpuCtrlEnable ||| mpuCtrlPrivdefena
      ∧ Describes (c.kernel.mpu.region mpuTaskPrivateDataRegion)
          (c.kernel.tasks c.kernel.currentTask).privateDataBase
          (c.kernel.tasks c.kernel.currentTask).privateDataSize
      ∧ Describes (c.kernel.mpu.region mpuStackGuardRegion)
          (taskStackGuard (c.kernel.tasks c.kernel.currentTask)) 32
      ∧ ∀ x, RegionCovers (c.kernel.mpu.region mpuTaskPrivateDataRegion) x →
          (∀ j < c.kernel.taskCount, j ≠ c.kernel.currentTask →
            x.toNat ∉ (c.kernel.tasks j).setup.privateRange)
          ∧ (∀ j < c.kernel.taskCount, x.toNat ∉ (c.kernel.tasks j).setup.stackRange)
          ∧ x.toNat ∉ img.timerServiceRange ∧ x.toNat ∉ img.idleRange := by
  obtain ⟨tasks, hi⟩ := h.isolated himg
  have hs := h.sched
  have hlt : c.kernel.currentTask < c.kernel.taskCount := by
    rw [hs.currentTask]
    exact hs.current_lt
  obtain ⟨hdata, hguard⟩ := hi.coherent hmpu
  rw [hi.privateDataBase, hi.privateDataSize] at hdata
  rw [hi.stackGuard] at hguard
  refine ⟨hi.enabled hmpu, hdata, hguard, fun x hx => ?_⟩
  have hmem : x.toNat ∈ (img.setups tasks c.kernel.applicationTaskCount
      c.kernel.currentTask).privateRange := by
    rw [← hi.setups _ hlt]
    exact (hdata.2 x).mp hx
  have hisolated := fun j => setups_isolated himg hi.table (i := c.kernel.currentTask) (j := j)
  refine ⟨fun j hj hne => ?_, fun j hj => ?_, ?_, ?_⟩
  · rw [hi.setups j hj]
    exact Set.disjoint_left.mp ((hisolated j).1 hne) hmem
  · rw [hi.setups j hj]
    exact Set.disjoint_left.mp (hisolated j).2.1 hmem
  · exact Set.disjoint_left.mp (hisolated 0).2.2.1 hmem
  · exact Set.disjoint_left.mp (hisolated 0).2.2.2 hmem

/-- A run of the mapped system: a tick makes the second task run. -/
def mappedRun : Option (List Transition × Cfg) :=
  match jrtKernelInit .mapped { Kernel.zero 0 with mpu := .reset } (some .mapped) with
  | .ok (.ok, k) => runActions (bootCfg k) [.start, .tick, .pendsv (sampleSp 0)]
  | _ => none

theorem mappedRun_reachable {tr : List Transition} {c : Cfg} (h : mappedRun = some (tr, c)) :
    Reachable .mapped c := by
  unfold mappedRun at h
  split at h
  · next k hinit => exact ⟨bootCfg k, tr, ⟨_, _, k, hinit, rfl⟩, runActions_run h⟩
  · cases h

theorem dynamic_regions_exact_sample : ∃ tr c, mappedRun = some (tr, c)
    ∧ c.kernel.currentTask = 1
    ∧ Describes (c.kernel.mpu.region mpuTaskPrivateDataRegion)
        (c.kernel.tasks c.kernel.currentTask).privateDataBase
        (c.kernel.tasks c.kernel.currentTask).privateDataSize := by
  have hsome : (mappedRun.any fun r => r.2.kernel.currentTask == 1 && r.2.kernel.mpu.hasMpu)
      = true := by decide +kernel
  obtain ⟨⟨tr, c⟩, hrun, hc⟩ := (Option.any_eq_true _ _).mp hsome
  rw [Bool.and_eq_true, beq_iff_eq] at hc
  exact ⟨tr, c, hrun, hc.1,
    (dynamic_regions_exact Image.mapped_linked (mappedRun_reachable hrun) hc.2).2.1⟩

end JustRT
