import JustRT.MpuRegion
import JustRT.RoundRobin

/-!
# The selected task

`pendsv_switch` for one switch, from any task table: which task it
selects, and what it leaves of the table. From it follows that a task
which every switch could select is selected within one turn around the
table, whatever happens between the switches: each switch that passes it
by moves the place the scan starts from nearer to it.
-/

namespace JustRT

/-! ## One switch -/

/-- Task `s` is the one to select: a candidate of the highest priority of one,
and the first of these behind the outgoing task. A candidate is `READY`, or
`RUNNING` and switched out now. The two scans of the switch are not in it: it
says what they are to find. -/
structure Kernel.Selects (k : Kernel) (s : Nat) : Prop where
  lt : s < k.taskCount
  candidate : k.candidate s = true
  highest : ∀ j < k.taskCount, k.candidate j = true → k.prio j ≤ k.prio s
  first : ∀ j < k.taskCount, k.candidate j = true → k.prio j = k.prio s →
    Cyclic.ahead k.taskCount k.gCurrentTaskIndex s ≤ Cyclic.ahead k.taskCount k.gCurrentTaskIndex j

/-- The state behind a switch to task `s`, which resumes it at `sp`: no wait
and no priority has changed, and no state but those of the outgoing task
and of `s`. -/
structure SwitchedTo (k k' : Kernel) (sp : Ptr) (s : Nat) : Prop where
  index : k'.gCurrentTaskIndex = s
  current : k'.currentTask = s
  resumes : sp = (k'.tasks s).sp
  selected : k'.view s = (k.view s).withState .running
  outgoing : s ≠ k.currentTask → k'.view k.currentTask
    = (k.view k.currentTask).withState (k.view k.currentTask).state.demoted
  others : ∀ i, i ≠ s → i ≠ k.currentTask → k'.view i = k.view i
  priorities : PrioFrame k k'

/-- The outgoing stack pointer passes the check of `update_stack_usage`. -/
def Kernel.StackHolds (k : Kernel) (currentSp : Ptr) : Prop :=
  (k.tasks k.currentTask).stackBottom ≤ currentSp ∧ currentSp ≤ (k.tasks k.currentTask).stackTop
    ∧ currentSp &&& 3 = 0

instance (k : Kernel) (currentSp : Ptr) : Decidable (k.StackHolds currentSp) :=
  inferInstanceAs (Decidable (_ ∧ _ ∧ _))

section Switch

variable {k k₁ k' : Kernel} {currentSp sp : Ptr} {s t : Nat}

theorem Kernel.Selects.unique (hb : k.gCurrentTaskIndex < k.taskCount) (hs : k.Selects s)
    (ht : k.Selects t) : s = t := by
  have hprio : k.prio s = k.prio t :=
    Nat.le_antisymm (ht.highest s hs.lt hs.candidate) (hs.highest t ht.lt ht.candidate)
  have hplace := Nat.le_antisymm (hs.first t ht.lt ht.candidate hprio.symm)
    (ht.first s hs.lt hs.candidate hprio)
  exact Cyclic.ahead_inj hb hs.lt ht.lt hplace

theorem pendsvSave_ok (hsp : k.StackHolds currentSp) :
    ∃ k₁, pendsvSave k currentSp = .ok k₁ := by
  obtain ⟨hbottom, htop, halign⟩ := hsp
  have hcheck : ¬(currentSp < (k.tasks k.currentTask).stackBottom
      ∨ currentSp > (k.tasks k.currentTask).stackTop ∨ currentSp &&& 3 ≠ 0) := by
    rintro (hlow | hhigh | hodd)
    · exact absurd hlow (UInt32.not_lt.mpr hbottom)
    · exact absurd hhigh (UInt32.not_lt.mpr htop)
    · exact hodd halign
  simp only [pendsvSave, exec_bind_eq_ok, updateStackUsage, Kernel.setTask_tasks_self]
  rw [if_neg (by exact hcheck)]
  exact ⟨_, _, rfl, rfl⟩

theorem setTask_privateDataSize {k : Kernel} {i : Nat} {t : Task}
    (h : t.privateDataSize = (k.tasks i).privateDataSize) (j : Nat) :
    ((k.setTask i t).tasks j).privateDataSize = (k.tasks j).privateDataSize := by
  rw [Kernel.setTask_tasks]
  split
  · next hj => rw [hj, h]
  · rfl

theorem pendsvSave_privateDataSize (hsave : pendsvSave k currentSp = .ok k₁) (i : Nat) :
    (k₁.tasks i).privateDataSize = (k.tasks i).privateDataSize := by
  simp only [pendsvSave, exec_bind_eq_ok, updateStackUsage] at hsave
  obtain ⟨k₂, husage, hret⟩ := hsave
  split at husage
  · cases husage
  · obtain rfl := Except.ok.inj husage
    obtain rfl := Except.ok.inj hret
    refine (setTask_privateDataSize (by rfl) i).trans ?_
    rw [(recordHighWater_frame _ _).2]
    exact (setTask_privateDataSize (by rfl) i).trans (setTask_privateDataSize (by rfl) i)

/-- The private region of a task is programmed, unless it is over 2 GiB. -/
theorem archSetTaskPrivateData_ok (m : Mpu) (base : UInt32) {size : UInt32}
    (hsize : size.toNat ≤ 2 ^ 31) : ∃ m', archSetTaskPrivateData m base size = .ok m' := by
  obtain ⟨size', encoding, -, hgrow, -⟩ := growSizeLoop_spec hsize 34 Encodes.first (by decide)
  have hstore : ∃ m', storePrivateRegion m base size = .ok m' := by
    rw [storePrivateRegion]
    split
    · exact ⟨_, rfl⟩
    · simp only [hgrow, bind, Except.bind]
      exact ⟨_, rfl⟩
  obtain ⟨m', hm'⟩ := hstore
  rw [archSetTaskPrivateData]
  split
  · exact ⟨_, rfl⟩
  · cases hmpu : m.hasMpu with
    | false => exact ⟨_, rfl⟩
    | true =>
        simp only [if_true, hm', bind, Except.bind]
        exact ⟨_, rfl⟩

/-- Behind the save, the scans select the one task to select. -/
theorem pendsvNextIndex_selects (hsave : pendsvSave k currentSp = .ok k₁)
    (hb : k.gCurrentTaskIndex < k.taskCount) (ht : t < k.taskCount)
    (hc : k.candidate t = true) : k.Selects (pendsvNextIndex k₁ k.gCurrentTaskIndex) := by
  obtain ⟨hframe, -, hprio⟩ := pendsvSave_spec hsave
  have hn : k₁.taskCount = k.taskCount := hframe.1
  have hexists : k₁.Ready t := (ready_saved_iff hsave t).mpr ⟨ht, hc⟩
  obtain ⟨hsel, hbest, hfirst⟩ := pendsvNextIndex_spec (hn ▸ hb) hexists
  rw [hprio.1] at hbest hfirst
  rw [hn] at hfirst
  obtain ⟨hlt, hcandidate⟩ := (ready_saved_iff hsave _).mp hsel
  exact
    { lt := hlt
      candidate := hcandidate
      highest := fun j hj hc => hbest j ((ready_saved_iff hsave j).mpr ⟨hj, hc⟩)
      first := fun j hj hc => hfirst j ((ready_saved_iff hsave j).mpr ⟨hj, hc⟩) }

theorem switchedTo (hsave : pendsvSave k currentSp = .ok k₁)
    (hswitch : pendsvSwitch k currentSp = .ok (sp, k')) :
    SwitchedTo k k' sp (pendsvNextIndex k₁ k.gCurrentTaskIndex) := by
  have hsp : sp = (k'.tasks k'.currentTask).sp := by
    simp only [pendsvSwitch, exec_bind_eq_ok] at hswitch
    obtain ⟨_, -, _, -, hret⟩ := hswitch
    cases hret
    rfl
  obtain ⟨k₂, hsave₂, -, hprio, hindex, hcurrent, hview⟩ := pendsvSwitch_cases hswitch
  obtain rfl : k₁ = k₂ := Except.ok.inj (hsave.symm.trans hsave₂)
  obtain ⟨-, hsaved, -⟩ := pendsvSave_spec hsave
  refine
    { index := hindex
      current := hcurrent
      resumes := hcurrent ▸ hsp
      selected := ?_
      outgoing := fun hne => ?_
      others := fun i hi hcur => ?_
      priorities := hprio }
  · rw [hview, Function.update_self, hsaved]
    by_cases hs : pendsvNextIndex k₁ k.gCurrentTaskIndex = k.currentTask
    · rw [hs, Function.update_self]
      rfl
    · rw [Function.update_of_ne hs]
  · rw [hview, Function.update_of_ne hne.symm, hsaved, Function.update_self]
  · rw [hview, Function.update_of_ne hi, hsaved, Function.update_of_ne hcur]

theorem pendsvInstall_ok (hsize : (k.tasks s).privateDataSize.toNat ≤ 2 ^ 31) :
    ∃ k', pendsvInstall k s = .ok k' := by
  have hsame : ((taskBenchmarkStartLocked (Kernel.setTask
      { k with gCurrentTaskIndex := s, currentTask := s } s ((k.tasks s).withState .running))
        s).tasks s).privateDataSize = (k.tasks s).privateDataSize := by
    rw [(taskBenchmarkStartLocked_frame _ _).2]
    exact setTask_privateDataSize (by rfl) s
  obtain ⟨m', hm'⟩ := archSetTaskPrivateData_ok k.mpu
    ((taskBenchmarkStartLocked (Kernel.setTask
      { k with gCurrentTaskIndex := s, currentTask := s } s ((k.tasks s).withState .running))
        s).tasks s).privateDataBase (hsame ▸ hsize)
  simp only [pendsvInstall, exec_bind_eq_ok]
  exact ⟨_, m', hm', rfl⟩

/-- Behind the save a switch comes to its end, unless the private region
of the selected task is over 2 GiB. -/
theorem pendsvSwitch_ok (hsave : pendsvSave k currentSp = .ok k₁)
    (hsize : (k.tasks (pendsvNextIndex k₁ k.gCurrentTaskIndex)).privateDataSize.toNat ≤ 2 ^ 31) :
    ∃ sp k', pendsvSwitch k currentSp = .ok (sp, k') := by
  rw [← pendsvSave_privateDataSize hsave,
    ← (pendsvStatistics_frame k₁ k.gCurrentTaskIndex).2] at hsize
  obtain ⟨k₂, hk₂⟩ := pendsvInstall_ok hsize
  refine ⟨(k₂.tasks k₂.currentTask).sp, k₂, ?_⟩
  simp only [pendsvSwitch, exec_bind_eq_ok]
  exact ⟨k₁, hsave, k₂, hk₂, rfl⟩

/-- One switch, from any table with a task to select and with the outgoing
stack pointer inside its stack. -/
theorem pendsvSwitch_selected (hb : k.gCurrentTaskIndex < k.taskCount) (ht : t < k.taskCount)
    (hc : k.candidate t = true) (hsp : k.StackHolds currentSp) :
    ∃ s, k.Selects s
      ∧ ((k.tasks s).privateDataSize.toNat ≤ 2 ^ 31 →
          ∃ sp k', pendsvSwitch k currentSp = .ok (sp, k'))
      ∧ ∀ sp k', pendsvSwitch k currentSp = .ok (sp, k') → SwitchedTo k k' sp s := by
  obtain ⟨k₁, hsave⟩ := pendsvSave_ok hsp
  refine ⟨_, pendsvNextIndex_selects hsave hb ht hc, pendsvSwitch_ok hsave, ?_⟩
  intro sp k' hswitch
  exact switchedTo hsave hswitch

/-- A switch that passes `t` by starts the next scan nearer to it. -/
theorem pendsvSwitch_nearer (hswitch : pendsvSwitch k currentSp = .ok (sp, k'))
    (hb : k.gCurrentTaskIndex < k.taskCount) (ht : t < k.taskCount)
    (hc : k.candidate t = true)
    (hbest : ∀ j < k.taskCount, k.candidate j = true → k.prio j ≤ k.prio t)
    (hpassed : k'.gCurrentTaskIndex ≠ t) :
    Cyclic.ahead k.taskCount k'.gCurrentTaskIndex t
      < Cyclic.ahead k.taskCount k.gCurrentTaskIndex t := by
  obtain ⟨hlt, hcandidate, -, hhighest, hfirst⟩ := switch_spec hswitch hb ht hc
  have hprio : k.prio t = k.prio k'.gCurrentTaskIndex :=
    Nat.le_antisymm (hhighest t ht hc) (hbest _ hlt hcandidate)
  have hplace := hfirst t ht hc hprio
  exact Cyclic.ahead_lt_of_passed hb hlt ht hpassed hplace

end Switch

/-! ## A turn of switches -/

section Turn

/-- `m` switches of a table of `n` tasks, one after the other: between two
of them the current task stays, and everything else may change. -/
structure Switches (n m : Nat) (k k' : Nat → Kernel) (currentSp sp : Nat → Ptr) : Prop where
  switch : ∀ j < m, pendsvSwitch (k j) (currentSp j) = .ok (sp j, k' j)
  taskCount : ∀ j < m, (k j).taskCount = n
  first : (k 0).gCurrentTaskIndex < n
  next : ∀ j, j + 1 < m → (k (j + 1)).gCurrentTaskIndex = (k' j).gCurrentTaskIndex

/-- The switch could select `t`: it is a candidate, and no candidate has a
higher priority. -/
def Kernel.maySelect (k : Kernel) (t : Nat) : Prop :=
  k.candidate t = true ∧ ∀ j < k.taskCount, k.candidate j = true → k.prio j ≤ k.prio t

variable {n m t : Nat} {k k' : Nat → Kernel} {currentSp sp : Nat → Ptr}

/-- A switch that passes `t` by comes nearer to it. -/
theorem Switches.step (h : Switches n m k k' currentSp sp) (ht : t < n) {j : Nat} (hj : j < m)
    (hmay : (k j).maySelect t) (hpassed : (k' j).gCurrentTaskIndex ≠ t)
    (hb : (k j).gCurrentTaskIndex < n) :
    (k' j).gCurrentTaskIndex < n
      ∧ Cyclic.ahead n (k' j).gCurrentTaskIndex t < Cyclic.ahead n (k j).gCurrentTaskIndex t := by
  obtain ⟨hc, hbest⟩ := hmay
  have hn := h.taskCount j hj
  rw [← hn] at hb ht ⊢
  obtain ⟨hlt, -⟩ := switch_spec (h.switch j hj) hb ht hc
  exact ⟨hlt, pendsvSwitch_nearer (h.switch j hj) hb ht hc hbest hpassed⟩

/-- Each switch of a turn that has not selected `t` has come one place
nearer to it, at least. -/
theorem Switches.nearer (h : Switches n m k k' currentSp sp) (ht : t < n)
    (hmay : ∀ j < m, (k j).maySelect t)
    (hpassed : ∀ j < m, (k' j).gCurrentTaskIndex ≠ t) (j : Nat) (hj : j < m) :
    (k j).gCurrentTaskIndex < n ∧ Cyclic.ahead n (k j).gCurrentTaskIndex t + j ≤ n := by
  induction j with
  | zero => exact ⟨h.first, Cyclic.ahead_le _ ht⟩
  | succ j ih =>
      have hj' : j < m := by omega
      obtain ⟨hb, hle⟩ := ih hj'
      obtain ⟨hlt, hnearer⟩ := h.step ht hj' (hmay j hj') (hpassed j hj') hb
      rw [h.next j hj]
      exact ⟨hlt, by omega⟩

/-- A task that each of `n` switches of a table of `n` tasks could select
is selected by one of them. -/
theorem Switches.selected (h : Switches n n k k' currentSp sp) (ht : t < n)
    (hmay : ∀ j < n, (k j).maySelect t) : ∃ j < n, (k' j).gCurrentTaskIndex = t := by
  by_contra hnone
  have hpassed : ∀ j < n, (k' j).gCurrentTaskIndex ≠ t := fun j hj heq => hnone ⟨j, hj, heq⟩
  have hlast : n - 1 < n := by omega
  obtain ⟨hb, hle⟩ := h.nearer ht hmay hpassed (n - 1) hlast
  -- One place is left, and the last switch passes `t` by once more.
  obtain ⟨hlt, hnearer⟩ := h.step ht hlast (hmay _ hlast) (hpassed _ hlast) hb
  have hpos := Cyclic.ahead_pos (i := t) hlt
  omega

end Turn

/-! ## The system -/

def Transition.switches (x : Transition) : Bool :=
  match x.action with
  | .pendsv _ => true
  | _ => false

/-- A step brings the place the next scan starts from nearer to `t` if it is
a switch, or it selects `t`. -/
theorem selects_turn_step {c c' : Cfg} {a : Action} {o : Observation} {t : Nat}
    (hstep : StepCases c a c' o) (hb : c.current < c.kernel.taskCount)
    (ht : t < c.kernel.taskCount)
    (hmay : Transition.switches ⟨c, a, o, c'⟩ = true → c.kernel.maySelect t) :
    c'.current < c.kernel.taskCount
      ∧ (Transition.selects t ⟨c, a, o, c'⟩ = true
        ∨ Cyclic.ahead c.kernel.taskCount c'.current t
            + (Transition.switches ⟨c, a, o, c'⟩).toNat
          ≤ Cyclic.ahead c.kernel.taskCount c.current t) := by
  by_cases ha : ∃ currentSp, a = .pendsv currentSp
  · obtain ⟨currentSp, rfl⟩ := ha
    cases hstep with
    | thread _ _ hseg => cases hseg
    | @pendsv _ sp k _ _ hswitch =>
        obtain ⟨hc, hbest⟩ := hmay rfl
        obtain ⟨hlt, -⟩ := switch_spec hswitch hb ht hc
        refine ⟨hlt, ?_⟩
        by_cases hsel : k.gCurrentTaskIndex = t
        · exact Or.inl (beq_iff_eq.mpr hsel)
        · exact Or.inr (pendsvSwitch_nearer hswitch hb ht hc hbest hsel)
  · have hno : ∀ sp, a ≠ .pendsv sp := fun sp heq => ha ⟨sp, heq⟩
    have hswitches : Transition.switches ⟨c, a, o, c'⟩ = false := by
      cases a with
      | pendsv sp => exact absurd rfl (hno sp)
      | _ => rfl
    rw [hstep.current_eq hno, hswitches]
    exact ⟨hb, Or.inr (Nat.le_refl _)⟩

/-- A run with as many switches as there are tasks, each of which could
select `t`, selects `t`. -/
theorem selects_turn {c c' : Cfg} {tr : List Transition} {t : Nat} (hrun : Run c tr c')
    (hb : c.current < c.kernel.taskCount) (ht : t < c.kernel.taskCount)
    (hmay : ∀ x ∈ tr, x.switches = true → x.pre.kernel.maySelect t)
    (hturn : c.kernel.taskCount ≤ tr.countP Transition.switches) :
    ∃ x ∈ tr, x.selects t = true := by
  have hnear : c'.current < c.kernel.taskCount ∧ ((∃ x ∈ tr, x.selects t = true)
      ∨ Cyclic.ahead c.kernel.taskCount c'.current t + tr.countP Transition.switches
        ≤ c.kernel.taskCount) := by
    clear hturn
    induction hrun with
    | nil => exact ⟨hb, Or.inr (Cyclic.ahead_le _ ht)⟩
    | @snoc tr c₁ c₂ a o hrun hstep ih =>
        obtain ⟨hb₁, hnear⟩ := ih fun x hx => hmay x (List.mem_append_left _ hx)
        have hmem : (⟨c₁, a, o, c₂⟩ : Transition) ∈ tr ++ [⟨c₁, a, o, c₂⟩] :=
          List.mem_append_right _ List.mem_cons_self
        have hn : c₁.kernel.taskCount = c.kernel.taskCount := hrun.taskCount
        rw [← hn] at hb₁ ht hnear ⊢
        obtain ⟨hlt, hone⟩ := selects_turn_step (step_cases hstep) hb₁ ht (hmay _ hmem)
        refine ⟨hlt, ?_⟩
        rcases hnear with ⟨x, hx, hselects⟩ | hle
        · exact Or.inl ⟨x, List.mem_append_left _ hx, hselects⟩
        · rcases hone with hselects | hnearer
          · exact Or.inl ⟨_, hmem, hselects⟩
          · rw [countP_snoc]
            exact Or.inr (by omega)
  obtain ⟨hb', hsel | hle⟩ := hnear
  · exact hsel
  · have hone := Cyclic.ahead_pos (i := t) hb'
    omega

/-! ## The selection -/

/-- `pendsv_switch` selects the first `READY` task of the highest priority
behind the outgoing one and changes nothing else of the table; and a task
that every switch of a turn could select is selected within it. -/
theorem pendsv_selection :
    (∀ (k : Kernel) (currentSp : Ptr) (t : Nat), k.gCurrentTaskIndex < k.taskCount →
      t < k.taskCount → k.candidate t = true → k.StackHolds currentSp →
      ∃ s, k.Selects s
        ∧ ((k.tasks s).privateDataSize.toNat ≤ 2 ^ 31 →
            ∃ sp k', pendsvSwitch k currentSp = .ok (sp, k'))
        ∧ ∀ sp k', pendsvSwitch k currentSp = .ok (sp, k') → SwitchedTo k k' sp s)
    ∧ ∀ (n t : Nat) (k k' : Nat → Kernel) (currentSp sp : Nat → Ptr),
        Switches n n k k' currentSp sp → t < n → (∀ j < n, (k j).maySelect t) →
        ∃ j < n, (k' j).gCurrentTaskIndex = t := by
  refine ⟨fun k currentSp t hb ht hc hsp => ?_, fun n t k k' currentSp sp h ht hmay => ?_⟩
  · exact pendsvSwitch_selected hb ht hc hsp
  · exact h.selected ht hmay

/-- Two `READY` tasks, of which `current` ran last. -/
def twoReady (current : Nat) : Kernel :=
  { Kernel.zero 0 with taskCount := 2, gCurrentTaskIndex := current, currentTask := current }

/-- Two switches between the two tasks, the second of which selects task 0. -/
theorem pendsv_selection_sample :
    (∃ sp k', pendsvSwitch (twoReady 0) 0 = .ok (sp, k') ∧ SwitchedTo (twoReady 0) k' sp 1)
      ∧ ∃ k' sp, Switches 2 2 twoReady k' (fun _ => 0) sp
        ∧ ∃ j < 2, (k' j).gCurrentTaskIndex = 0 := by
  have hselects : ∀ i, (twoReady 0).Selects i → i = 1 := fun i hi => by
    have hone : (twoReady 0).Selects 1 :=
      { lt := by decide
        candidate := by decide
        highest := by decide
        first := by decide }
    exact hi.unique (by decide) hone
  obtain ⟨hone, hturn⟩ := pendsv_selection
  have hok : ∀ j < 2, ∃ r, pendsvSwitch (twoReady j) 0 = .ok r := fun j hj => by
    obtain ⟨s, -, hend, -⟩ := hone (twoReady j) 0 0 hj Nat.two_pos rfl
      ⟨UInt32.le_refl 0, UInt32.le_refl 0, rfl⟩
    obtain ⟨sp, k', hk'⟩ := hend (Nat.zero_le _)
    exact ⟨(sp, k'), hk'⟩
  have hnext : ∀ r, pendsvSwitch (twoReady 0) 0 = .ok r → SwitchedTo (twoReady 0) r.2 r.1 1 := by
    intro r hr
    obtain ⟨s, hs, -, hswitched⟩ := hone (twoReady 0) 0 0 Nat.two_pos Nat.two_pos rfl (by decide)
    exact hselects s hs ▸ hswitched r.1 r.2 hr
  have hnonempty : Nonempty (Ptr × Kernel) := ⟨(0, twoReady 0)⟩
  choose! r hr using hok
  refine ⟨⟨(r 0).1, (r 0).2, hr 0 Nat.two_pos, hnext _ (hr 0 Nat.two_pos)⟩, fun j => (r j).2,
    fun j => (r j).1, ?_⟩
  have hswitches : Switches 2 2 twoReady (fun j => (r j).2) (fun _ => 0) (fun j => (r j).1) :=
    { switch := hr
      taskCount := fun _ _ => rfl
      first := Nat.two_pos
      next := fun j hj => by
        obtain rfl : j = 0 := by omega
        exact (hnext _ (hr 0 Nat.two_pos)).index.symm }
  exact ⟨hswitches, hturn 2 0 _ _ _ _ hswitches Nat.two_pos
    fun j _ => ⟨rfl, fun i _ _ => Nat.le_refl 0⟩⟩

end JustRT
