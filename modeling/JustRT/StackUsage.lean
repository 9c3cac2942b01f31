import JustRT.Launch
import JustRT.MeterStep

/-!
# Reported stack usage

`JRT_TaskGetStackInfo` reports the smallest saved stack pointer, kept over
the task's lifetime, and the words in use, which `update_stack_usage` scans
for anew at each switch-out. The scan stops at the first word that no longer
holds the fill pattern, so what it finds depends on what the task has in
memory just then. `Cfg.MarksStack` is what it takes for one switch-out to
report no less than before, and down to the smallest stack pointer.
-/

namespace JustRT

/-! ## The report -/

structure JrtTaskStackInfo where
  stackWords : UInt32
  usedWords : UInt32
  minimumSp : UInt32
  currentSp : UInt32
deriving Repr, DecidableEq

def validateTaskId (k : Kernel) (taskId : Nat) : JrtStatus :=
  if taskId < k.taskCount then .ok else .invalidTask

/-- `JRT_TaskGetStackInfo`; `hasInfo` tells whether there is a place for the
report. -/
def jrtTaskGetStackInfo (k : Kernel) (taskId : Nat) (hasInfo : Bool) :
    Except JrtStatus JrtTaskStackInfo :=
  if !hasInfo || validateTaskId k taskId != .ok then .error .invalidTask
  else
    let task := k.tasks taskId
    .ok { stackWords := (task.stackTop - task.stackBottom) / 4
          usedWords := task.highWaterWords
          minimumSp := task.minimumSp
          currentSp := task.sp }

theorem jrtTaskGetStackInfo_ok {k : Kernel} {i : Nat} (hi : i < k.taskCount) :
    jrtTaskGetStackInfo k i true = .ok
      { stackWords := ((k.tasks i).stackTop - (k.tasks i).stackBottom) / 4
        usedWords := (k.tasks i).highWaterWords
        minimumSp := (k.tasks i).minimumSp
        currentSp := (k.tasks i).sp } := by
  simp [jrtTaskGetStackInfo, validateTaskId, hi]

theorem jrtTaskGetStackInfo_eq_ok {k : Kernel} {i : Nat} {info : JrtTaskStackInfo}
    (h : jrtTaskGetStackInfo k i true = .ok info) : i < k.taskCount
      ∧ info = { stackWords := ((k.tasks i).stackTop - (k.tasks i).stackBottom) / 4
                 usedWords := (k.tasks i).highWaterWords
                 minimumSp := (k.tasks i).minimumSp
                 currentSp := (k.tasks i).sp } := by
  by_cases hi : i < k.taskCount
  · rw [jrtTaskGetStackInfo_ok hi] at h
    exact ⟨hi, (Except.ok.inj h).symm⟩
  · simp [jrtTaskGetStackInfo, validateTaskId, hi] at h

/-- The words between a stack pointer and the top of the stack. -/
def Task.wordsAbove (t : Task) (sp : Ptr) : UInt32 := (t.stackTop - sp) / 4

/-- Behind the step the words in use are reported to be no fewer than before
it, and no fewer than the smallest stack pointer asks for. -/
def Transition.KeepsUsage (i : Nat) (x : Transition) : Prop :=
  ∃ before after, jrtTaskGetStackInfo x.pre.kernel i true = .ok before
    ∧ jrtTaskGetStackInfo x.post.kernel i true = .ok after
    ∧ before.usedWords ≤ after.usedWords
    ∧ (x.post.kernel.tasks i).wordsAbove after.minimumSp ≤ after.usedWords

/-- At a switch-out of task `i`, some word of its stack that is neither above
a stack pointer saved for the task, now or before, nor above the words
reported so far holds something other than the fill pattern. -/
def Cfg.MarksStack (i : Nat) (c : Cfg) : Action → Prop
  | .pendsv currentSp =>
      c.kernel.currentTask = i →
        let t := c.kernel.tasks i
        ∃ a : Ptr, (4 ∣ a.toNat ∧ t.stackBottom ≤ a)
          ∧ (a ≤ currentSp ∧ a ≤ t.minimumSp
            ∧ a.toNat + 4 * t.highWaterWords.toNat ≤ t.stackTop.toNat)
          ∧ c.kernel.memory a ≠ jrtTaskStackFill
  | _ => True

/-! ## The scan -/

theorem fillScan_le {m : Memory} {top word : Ptr} {fuel : Nat}
    (htop : word.toNat + 4 * fuel = top.toNat) (haligned : 4 ∣ word.toNat) :
    word ≤ fillScan m top fuel word ∧ fillScan m top fuel word ≤ top
      ∧ 4 ∣ (fillScan m top fuel word).toNat := by
  induction fuel generalizing word with
  | zero =>
      have hend : word = top := UInt32.toNat_inj.mp (by omega)
      rw [fillScan, ← hend]
      exact ⟨UInt32.le_refl word, UInt32.le_refl word, haligned⟩
  | succ fuel ih =>
      have hlt := top.toNat_lt
      have hnext : (word + 4).toNat = word.toNat + 4 := by
        rw [UInt32.toNat_add]
        exact Nat.mod_eq_of_lt (show word.toNat + 4 < 2 ^ 32 by omega)
      rw [fillScan]
      split
      · have hrest : (word + 4).toNat + 4 * fuel = top.toNat := by omega
        obtain ⟨hle, hle', hdvd⟩ := ih hrest (by omega)
        refine ⟨UInt32.le_iff_toNat_le.mpr ?_, hle', hdvd⟩
        have := UInt32.le_iff_toNat_le.mp hle
        omega
      · exact ⟨UInt32.le_refl word, UInt32.le_iff_toNat_le.mpr (by omega), haligned⟩

/-- The scan stops where a condition that holds downwards, and not at the
top, still holds exactly if a marked word meets the condition. -/
theorem fillScan_iff {m : Memory} {top word : Ptr} {fuel : Nat}
    (htop : word.toNat + 4 * fuel = top.toNat) (haligned : 4 ∣ word.toNat) {P : Nat → Prop}
    (hdown : ∀ {x y}, x ≤ y → P y → P x) (hP : ¬P top.toNat) :
    P (fillScan m top fuel word).toNat
      ↔ ∃ a : Ptr, (4 ∣ a.toNat ∧ word ≤ a) ∧ P a.toNat ∧ m a ≠ jrtTaskStackFill := by
  induction fuel generalizing word with
  | zero =>
      have hnone : ∀ a : Ptr, word ≤ a → ¬P a.toNat := by
        intro a ha hPa
        have hle := UInt32.le_iff_toNat_le.mp ha
        exact hP (hdown (by omega) hPa)
      constructor
      · intro h
        exact absurd h (hnone word (UInt32.le_refl word))
      · rintro ⟨a, ⟨-, ha⟩, hPa, -⟩
        exact absurd hPa (hnone a ha)
  | succ fuel ih =>
      have hlt := top.toNat_lt
      have hnext : (word + 4).toNat = word.toNat + 4 := by
        rw [UInt32.toNat_add]
        exact Nat.mod_eq_of_lt (show word.toNat + 4 < 2 ^ 32 by omega)
      have hbelow : word < top := UInt32.lt_iff_toNat_lt.mpr (by omega)
      rw [fillScan]
      by_cases hfill : m word = jrtTaskStackFill
      · rw [if_pos ⟨hbelow, hfill⟩, ih (by omega) (by omega)]
        refine exists_congr fun a => and_congr_left fun hmarked => and_congr_right fun hdvd => ?_
        -- The scanned word holds the pattern, so the marked one is another.
        have hne : a ≠ word := fun h => hmarked.2 (h ▸ hfill)
        have hne' : a.toNat ≠ word.toNat := fun h => hne (UInt32.toNat_inj.mp h)
        rw [UInt32.le_iff_toNat_le, UInt32.le_iff_toNat_le]
        omega
      · rw [if_neg fun h => hfill h.2]
        constructor
        · intro h
          exact ⟨word, ⟨haligned, UInt32.le_refl word⟩, h, hfill⟩
        · rintro ⟨a, ⟨-, ha⟩, hPa, -⟩
          exact hdown (UInt32.le_iff_toNat_le.mp ha) hPa

/-! ## Stacks -/

/-- A stack of words, and the smallest stack pointer in it. -/
structure Task.StackFramed (t : Task) : Prop where
  bottom_aligned : 4 ∣ t.stackBottom.toNat
  top_aligned : 4 ∣ t.stackTop.toNat
  minimum_aligned : 4 ∣ t.minimumSp.toNat
  bottom_le : t.stackBottom ≤ t.minimumSp
  minimum_lt : t.minimumSp < t.stackTop

/-- The words in use reach down to the smallest stack pointer. -/
def Task.UsageCovers (t : Task) : Prop := t.wordsAbove t.minimumSp ≤ t.highWaterWords

theorem Task.toNat_wordsAbove {t : Task} {sp : Ptr} (h : sp ≤ t.stackTop) :
    (t.wordsAbove sp).toNat = (t.stackTop.toNat - sp.toNat) / 4 := by
  rw [Task.wordsAbove, UInt32.toNat_div, UInt32.toNat_sub_of_le _ _ h]
  rfl

/-! ## One step -/

/-- A switch-out writes the stack usage of the outgoing task. -/
theorem pendsvSwitch_usage {k k' : Kernel} {currentSp sp : Ptr}
    (h : pendsvSwitch k currentSp = .ok (sp, k')) (i : Nat) :
    (k.currentTask = i ∧ (k.tasks i).InStack currentSp
        ∧ (k'.tasks i).minimumSp = (k.savedMeter i currentSp).minimumSp
        ∧ (k'.tasks i).highWaterWords = (k.savedMeter i currentSp).highWaterWords)
      ∨ (k.currentTask ≠ i
        ∧ (k'.tasks i).minimumSp = (k.tasks i).minimumSp
        ∧ (k'.tasks i).highWaterWords = (k.tasks i).highWaterWords) := by
  obtain ⟨hin, -, saved, hsaved, hmeter⟩ := pendsvSwitch_meter h
  -- A start leaves the usage of the selected task as it is.
  have hkept : (k'.meter i).minimumSp = (saved i).minimumSp
      ∧ (k'.meter i).highWaterWords = (saved i).highWaterWords := by
    rw [hmeter, Function.update_apply]
    split
    · next hi =>
        rw [hi]
        exact ⟨rfl, rfl⟩
    · exact ⟨rfl, rfl⟩
  by_cases hi : k.currentTask = i
  · subst hi
    rw [hsaved, Function.update_self] at hkept
    exact Or.inl ⟨rfl, hin, hkept.1, hkept.2⟩
  · rw [hsaved, Function.update_of_ne (Ne.symm hi)] at hkept
    exact Or.inr ⟨hi, hkept.1, hkept.2⟩

theorem StepCases.usage {c c' : Cfg} {a : Action} {o : Observation} (h : StepCases c a c' o)
    (hsched : Sched c) (i : Nat) :
    (∃ sp, a = .pendsv sp ∧ c.kernel.currentTask = i ∧ (c.kernel.tasks i).InStack sp
        ∧ (c'.kernel.tasks i).minimumSp = (c.kernel.savedMeter i sp).minimumSp
        ∧ (c'.kernel.tasks i).highWaterWords = (c.kernel.savedMeter i sp).highWaterWords)
      ∨ ((∀ sp, a = .pendsv sp → c.kernel.currentTask ≠ i)
        ∧ (c'.kernel.tasks i).minimumSp = (c.kernel.tasks i).minimumSp
        ∧ (c'.kernel.tasks i).highWaterWords = (c.kernel.tasks i).highWaterWords) := by
  by_cases hswitch : ∃ sp, a = .pendsv sp
  · obtain ⟨sp, rfl⟩ := hswitch
    cases h with
    | thread _ _ hseg => cases hseg
    | pendsv _ _ hk =>
        rcases pendsvSwitch_usage hk i with ⟨hcur, hout⟩ | ⟨hcur, hkept⟩
        · exact Or.inl ⟨sp, rfl, hcur, hout⟩
        · exact Or.inr ⟨fun _ _ => hcur, hkept⟩
  · have hnone : ∀ sp, a ≠ .pendsv sp := fun sp hsp => hswitch ⟨sp, hsp⟩
    refine Or.inr ⟨fun sp hsp => absurd hsp (hnone sp), ?_⟩
    obtain ⟨m, hmoves, hm⟩ := h.meter hsched hnone i
    have hkept : m.minimumSp = (c.kernel.meter i).minimumSp
        ∧ m.highWaterWords = (c.kernel.meter i).highWaterWords := by
      cases hmoves <;> exact ⟨rfl, rfl⟩
    have hmeter : (c'.kernel.meter i).minimumSp = m.minimumSp
        ∧ (c'.kernel.meter i).highWaterWords = m.highWaterWords := by
      rcases hm with ⟨-, hm⟩ | ⟨-, hm⟩ <;> rw [hm] <;> exact ⟨rfl, rfl⟩
    exact ⟨hmeter.1.trans hkept.1, hmeter.2.trans hkept.2⟩

theorem StepCases.stack {c c' : Cfg} {a : Action} {o : Observation} (h : StepCases c a c' o)
    (i : Nat) : (c'.kernel.tasks i).stackBottom = (c.kernel.tasks i).stackBottom
      ∧ (c'.kernel.tasks i).stackTop = (c.kernel.tasks i).stackTop :=
  ⟨congrArg TaskSetup.stackBottom (h.setup i), congrArg TaskSetup.stackTop (h.setup i)⟩

theorem Task.InStack.aligned {t : Task} {sp : Ptr} (h : t.InStack sp) : 4 ∣ sp.toNat :=
  (and_mask_eq_zero_iff (m := 3) (j := 2) rfl sp).mp h.2.2

theorem StepCases.stackFramed {c c' : Cfg} {a : Action} {o : Observation}
    (h : StepCases c a c' o) (hsched : Sched c) {i : Nat}
    (hframed : (c.kernel.tasks i).StackFramed) : (c'.kernel.tasks i).StackFramed := by
  obtain ⟨hbottom, htop⟩ := h.stack i
  obtain ⟨hbottom₄, htop₄, hminimum₄, hle, hlt⟩ := hframed
  rw [← hbottom] at hbottom₄ hle
  rw [← htop] at htop₄ hlt
  rcases h.usage hsched i with ⟨sp, -, -, hin, hminimum, -⟩ | ⟨-, hminimum, -⟩
  · have hsaved : (c'.kernel.tasks i).minimumSp = sp
          ∧ sp < (c.kernel.tasks i).minimumSp
        ∨ (c'.kernel.tasks i).minimumSp = (c.kernel.tasks i).minimumSp := by
      rw [hminimum, Kernel.savedMeter]
      split
      · next hsp => exact Or.inl ⟨rfl, hsp⟩
      · exact Or.inr rfl
    rcases hsaved with ⟨hsp, hbelow⟩ | hsp
    · rw [← hsp] at hin hbelow
      exact ⟨hbottom₄, htop₄, hin.aligned, hbottom ▸ hin.1, UInt32.lt_trans hbelow hlt⟩
    · rw [← hsp] at hminimum₄ hle hlt
      exact ⟨hbottom₄, htop₄, hminimum₄, hle, hlt⟩
  · rw [← hminimum] at hminimum₄ hle hlt
    exact ⟨hbottom₄, htop₄, hminimum₄, hle, hlt⟩

/-- The words above `word` are no fewer than `used`, and no fewer than those
above two stack pointers, exactly if `word` lies below them all. -/
theorem wordsAbove_ge_iff {top word sp minimum used : Nat} (htop : 4 ∣ top) (hword : 4 ∣ word)
    (hsp : 4 ∣ sp) (hminimum : 4 ∣ minimum) (hle : word ≤ top) (hlt : minimum < top) :
    (used ≤ (top - word) / 4 ∧ (top - min sp minimum) / 4 ≤ (top - word) / 4)
      ↔ word ≤ sp ∧ word ≤ minimum ∧ word + 4 * used ≤ top := by
  rcases Nat.le_total sp minimum with h | h
  · rw [Nat.min_eq_left h]
    omega
  · rw [Nat.min_eq_right h]
    omega

/-- A switch-out keeps the reported usage exactly if the task marks its
stack. -/
theorem savedMeter_keeps_iff {k : Kernel} {i : Nat} {sp : Ptr}
    (hframed : (k.tasks i).StackFramed) (hin : (k.tasks i).InStack sp) :
    ((k.tasks i).highWaterWords ≤ (k.savedMeter i sp).highWaterWords
        ∧ (k.tasks i).wordsAbove (k.savedMeter i sp).minimumSp
          ≤ (k.savedMeter i sp).highWaterWords)
      ↔ ∃ a : Ptr, (4 ∣ a.toNat ∧ (k.tasks i).stackBottom ≤ a)
          ∧ (a ≤ sp ∧ a ≤ (k.tasks i).minimumSp
            ∧ a.toNat + 4 * (k.tasks i).highWaterWords.toNat ≤ (k.tasks i).stackTop.toNat)
          ∧ k.memory a ≠ jrtTaskStackFill := by
  obtain ⟨hbottom₄, htop₄, hminimum₄, hle, hlt⟩ := hframed
  have hleN := UInt32.le_iff_toNat_le.mp hle
  have hltN := UInt32.lt_iff_toNat_lt.mp hlt
  have hsize : (((k.tasks i).stackTop - (k.tasks i).stackBottom) / 4).toNat
      = ((k.tasks i).stackTop.toNat - (k.tasks i).stackBottom.toNat) / 4 :=
    Task.toNat_wordsAbove (UInt32.le_iff_toNat_le.mpr (by omega))
  have hfuel : (k.tasks i).stackBottom.toNat
      + 4 * (((k.tasks i).stackTop - (k.tasks i).stackBottom) / 4).toNat
      = (k.tasks i).stackTop.toNat := by
    rw [hsize]
    omega
  obtain ⟨-, hword, hword₄⟩ := fillScan_le (m := k.memory) hfuel hbottom₄
  have hmark := fillScan_iff (m := k.memory) hfuel hbottom₄
    (P := fun x => x ≤ sp.toNat ∧ x ≤ (k.tasks i).minimumSp.toNat
      ∧ x + 4 * (k.tasks i).highWaterWords.toNat ≤ (k.tasks i).stackTop.toNat)
    (fun hxy hy => ⟨by omega, by omega, by omega⟩) (fun h => by omega)
  have hused : (k.savedMeter i sp).highWaterWords.toNat
      = ((k.tasks i).stackTop.toNat - (fillScan k.memory (k.tasks i).stackTop
          (((k.tasks i).stackTop - (k.tasks i).stackBottom) / 4).toNat
          (k.tasks i).stackBottom).toNat) / 4 := Task.toNat_wordsAbove hword
  -- The new smallest stack pointer lies in the stack as well.
  have hminimum : (k.savedMeter i sp).minimumSp.toNat
      = min sp.toNat (k.tasks i).minimumSp.toNat := by
    rw [Kernel.savedMeter]
    split
    · next h =>
        rw [Nat.min_eq_left (Nat.le_of_lt (UInt32.lt_iff_toNat_lt.mp h))]
    · next h =>
        rw [Nat.min_eq_right (UInt32.le_iff_toNat_le.mp (UInt32.not_lt.mp h))]
  have habove : ((k.tasks i).wordsAbove (k.savedMeter i sp).minimumSp).toNat
      = ((k.tasks i).stackTop.toNat - min sp.toNat (k.tasks i).minimumSp.toNat) / 4 := by
    rw [Task.toNat_wordsAbove (UInt32.le_iff_toNat_le.mpr (by omega)), hminimum]
  simp only [UInt32.le_iff_toNat_le] at hmark hword ⊢
  rw [← hmark, habove, hused]
  exact wordsAbove_ge_iff htop₄ hword₄ hin.aligned hminimum₄ hword hltN

/-! ## Runs -/

/-- A step keeps the reported usage exactly if the task marks its stack. -/
theorem StepCases.keepsUsage_iff {c c' : Cfg} {a : Action} {o : Observation}
    (h : StepCases c a c' o) (hsched : Sched c) {i : Nat} (hi : i < c.kernel.taskCount)
    (hframed : (c.kernel.tasks i).StackFramed) (hcovers : (c.kernel.tasks i).UsageCovers) :
    Transition.KeepsUsage i ⟨c, a, o, c'⟩ ↔ c.MarksStack i a := by
  have hi' : i < c'.kernel.taskCount := h.taskCount ▸ hi
  have hkeeps : Transition.KeepsUsage i ⟨c, a, o, c'⟩
      ↔ (c.kernel.tasks i).highWaterWords ≤ (c'.kernel.tasks i).highWaterWords
        ∧ (c.kernel.tasks i).wordsAbove (c'.kernel.tasks i).minimumSp
          ≤ (c'.kernel.tasks i).highWaterWords := by
    have htop : (c'.kernel.tasks i).wordsAbove = (c.kernel.tasks i).wordsAbove := by
      funext sp
      rw [Task.wordsAbove, Task.wordsAbove, (h.stack i).2]
    rw [Transition.KeepsUsage, jrtTaskGetStackInfo_ok hi, jrtTaskGetStackInfo_ok hi', htop]
    constructor
    · rintro ⟨before, after, hbefore, hafter, hkept⟩
      obtain rfl := Except.ok.inj hbefore
      obtain rfl := Except.ok.inj hafter
      exact hkept
    · intro hkept
      exact ⟨_, _, rfl, rfl, hkept⟩
  rw [hkeeps]
  rcases h.usage hsched i with ⟨sp, rfl, hcur, hin, hminimum, hwords⟩ | ⟨hother, hminimum, hwords⟩
  · rw [hminimum, hwords, savedMeter_keeps_iff hframed hin]
    exact ⟨fun h _ => h, fun h => h hcur⟩
  · rw [hminimum, hwords]
    have hmarks : c.MarksStack i a := by
      cases a with
      | pendsv sp => exact fun hcur => absurd hcur (hother sp rfl)
      | _ => trivial
    exact ⟨fun _ => hmarks, fun _ => ⟨UInt32.le_refl _, hcovers⟩⟩

/-- Before a task has run its initial frame is in use, and reported. -/
theorem Boot.stackUsage {img : Image} (himg : img.Linked) (hbuilt : img.StacksBuilt) {c : Cfg}
    (h : Boot img c) {i : Nat} (hi : i < c.kernel.taskCount) :
    (c.kernel.tasks i).StackFramed ∧ (c.kernel.tasks i).UsageCovers := by
  obtain ⟨hminimum, hwords⟩ := (h.meter.2.2.2 i hi).1
  obtain ⟨words, ⟨htop, hroom, heven, haligned⟩, hsp⟩ :
      ∃ words, (c.kernel.tasks i).setup.Sound words
        ∧ (c.kernel.tasks i).sp = (c.kernel.tasks i).setup.stackTop - 68 := by
    obtain ⟨k₀, config, k, hinit, rfl⟩ := h
    obtain ⟨tasks, -, -, -, hdefinitions, hregions, hsetUp⟩ := jrtKernelInit_cases hinit
    have htable := (validTable_iff himg tasks config.taskCount).mp ⟨hdefinitions, hregions⟩
    obtain ⟨happ, hledger⟩ := kernelSetUp_ledger hsetUp
    change i < k.taskCount at hi
    rw [(jrtKernelInit_booted hinit).taskCount_eq, happ] at hi
    have hsetup : (k.tasks i).setup = img.setups tasks config.taskCount i :=
      congrArg TaskLedger.setup (hledger i hi)
    obtain ⟨words, hsound⟩ := Image.setups_sound himg hbuilt htable i
    rw [← hsetup] at hsound
    refine ⟨words, hsound, ?_⟩
    change (k.tasks i).sp = (k.tasks i).setup.stackTop - 68
    rw [hsetup]
    exact congrArg TaskLedger.sp (hledger i hi)
  change (c.kernel.tasks i).stackTop.toNat = (c.kernel.tasks i).stackBottom.toNat + 4 * words at htop
  change 8 ∣ (c.kernel.tasks i).stackBottom.toNat at haligned
  change (c.kernel.tasks i).sp = (c.kernel.tasks i).stackTop - 68 at hsp
  have hle : (68 : UInt32) ≤ (c.kernel.tasks i).stackTop :=
    UInt32.le_iff_toNat_le.mpr (show 68 ≤ (c.kernel.tasks i).stackTop.toNat by omega)
  have hspN : (c.kernel.tasks i).minimumSp.toNat = (c.kernel.tasks i).stackTop.toNat - 68 := by
    rw [hminimum, hsp, UInt32.toNat_sub_of_le _ _ hle]
    rfl
  constructor
  · exact ⟨by omega, by omega, by omega, UInt32.le_iff_toNat_le.mpr (by omega),
      UInt32.lt_iff_toNat_lt.mpr (by omega)⟩
  · rw [Task.UsageCovers, hwords, UInt32.le_iff_toNat_le,
      Task.toNat_wordsAbove (UInt32.le_iff_toNat_le.mpr (by omega)), hspN]
    show ((c.kernel.tasks i).stackTop.toNat - ((c.kernel.tasks i).stackTop.toNat - 68)) / 4 ≤ 17
    omega

/-- In every run from initialisation each step reports no less stack usage
than before it, and down to the smallest stack pointer, exactly if the task
marks its stack at each of its switch-outs. -/
theorem usedWords_lifetime {img : Image} (himg : img.Linked) (hbuilt : img.StacksBuilt)
    {c₀ c : Cfg} {tr : List Transition} (hboot : Boot img c₀) (hrun : Run c₀ tr c) {i : Nat}
    (hi : i < c₀.kernel.taskCount) :
    (c₀.kernel.tasks i).UsageCovers
      ∧ ((∀ x ∈ tr, x.KeepsUsage i) ↔ ∀ x ∈ tr, x.pre.MarksStack i x.action) := by
  obtain ⟨hframed, hcovers⟩ := hboot.stackUsage himg hbuilt hi
  have hsched : Sched c₀ := Reachable.sched ⟨c₀, [], hboot, .nil⟩
  refine ⟨hcovers, (hrun.steps_iff
    (fun c => (Sched c ∧ i < c.kernel.taskCount) ∧ (c.kernel.tasks i).StackFramed)
    (fun c => (c.kernel.tasks i).UsageCovers) (Transition.KeepsUsage i) (Cfg.MarksStack i)
    ?_ ?_ ?_ ⟨⟨hsched, hi⟩, hframed⟩ hcovers).1.symm⟩
  · rintro c₁ c₂ a o ⟨⟨hs, hi⟩, hf⟩ hstep
    exact ⟨⟨hs.step hstep, hstep.taskCount ▸ hi⟩, hstep.stackFramed hs hf⟩
  · rintro c₁ c₂ a o ⟨⟨hs, hi⟩, hf⟩ hstep hc
    exact hstep.keepsUsage_iff hs hi hf hc
  · rintro x ⟨before, after, -, hafter, -, hcovered⟩
    obtain rfl := (jrtTaskGetStackInfo_eq_ok hafter).2
    exact hcovered

/-- The lowest word of the stack is what a switch-out finds marked. -/
def Transition.marksBottom (i : Nat) (x : Transition) : Bool :=
  match x.action with
  | .pendsv currentSp =>
      let t := x.pre.kernel.tasks i
      decide ((4 ∣ t.stackBottom.toNat ∧ t.stackBottom ≤ currentSp ∧ t.stackBottom ≤ t.minimumSp
        ∧ t.stackBottom.toNat + 4 * t.highWaterWords.toNat ≤ t.stackTop.toNat)
        ∧ x.pre.kernel.memory t.stackBottom ≠ jrtTaskStackFill)
  | _ => true

theorem Cfg.MarksStack.of_bottom {i : Nat} {x : Transition} (h : x.marksBottom i = true) :
    x.pre.MarksStack i x.action := by
  unfold Transition.marksBottom at h
  cases hx : x.action with
  | pendsv currentSp =>
      rw [hx] at h
      obtain ⟨⟨haligned, hsp, hminimum, hwords⟩, hmarked⟩ := of_decide_eq_true h
      intro _
      exact ⟨_, ⟨haligned, UInt32.le_refl _⟩, ⟨hsp, hminimum, hwords⟩, hmarked⟩
  | _ => trivial

/-- The sample task uses its whole stack and is switched out; back again it
stores `word` at the bottom of the stack, and is switched out once more with the
same stack pointer. -/
def bottomRun (word : UInt32) : Option (List Transition × Cfg) :=
  match jrtKernelInit .mapped (.zero 0) (some (.stackAt 0x20400000)) with
  | .ok (.ok, k) => runActions (bootCfg k)
      [.start, .store 0x20400020 0, .call .taskYield, .pendsv 0x20400024,
        .store 0x20400020 word, .call .taskYield, .pendsv 0x20400024]
  | _ => none

theorem bottomRun_run {word : UInt32} {tr : List Transition} {c : Cfg}
    (h : bottomRun word = some (tr, c)) : ∃ c₀, Boot .mapped c₀ ∧ Run c₀ tr c := by
  unfold bottomRun at h
  split at h
  · next k hinit => exact ⟨bootCfg k, ⟨_, _, k, hinit, rfl⟩, runActions_run h⟩
  · cases h

/-- With the fill pattern back at the bottom the scan finds one word less than it
has reported before. -/
theorem usedWords_lifetime_fails : ∃ c₀ tr c, Boot .mapped c₀ ∧ Run c₀ tr c
    ∧ ∃ x ∈ tr, ∃ before after, jrtTaskGetStackInfo x.pre.kernel 0 true = .ok before
      ∧ jrtTaskGetStackInfo x.post.kernel 0 true = .ok after
      ∧ before.usedWords = 18 ∧ after.usedWords = 17 := by
  have hsome : ((bottomRun jrtTaskStackFill).any fun r => r.1.any fun x =>
      passes (jrtTaskGetStackInfo x.pre.kernel 0 true) fun before =>
        passes (jrtTaskGetStackInfo x.post.kernel 0 true) fun after =>
          decide (before.usedWords = 18 ∧ after.usedWords = 17)) = true := by
    decide +kernel
  obtain ⟨⟨tr, c⟩, hrun, hfails⟩ := (Option.any_eq_true _ _).mp hsome
  obtain ⟨c₀, hboot, hrun⟩ := bottomRun_run hrun
  obtain ⟨x, hx, hless⟩ := List.any_eq_true.mp hfails
  obtain ⟨before, hbefore, hless⟩ := passes_eq_true.mp hless
  obtain ⟨after, hafter, hless⟩ := passes_eq_true.mp hless
  obtain ⟨hfirst, hlast⟩ := of_decide_eq_true hless
  exact ⟨c₀, tr, c, hboot, hrun, x, hx, before, after, hbefore, hafter, hfirst, hlast⟩

/-- That run, which does not meet the condition; and the one in which the bottom
keeps another word, which does. -/
theorem usedWords_lifetime_repainted :
    (∃ c₀ tr c, Boot .mapped c₀ ∧ Run c₀ tr c ∧ (c₀.kernel.tasks 0).UsageCovers
      ∧ ((∀ x ∈ tr, x.KeepsUsage 0) ↔ ∀ x ∈ tr, x.pre.MarksStack 0 x.action)
      ∧ tr.length = 7 ∧ (c.kernel.tasks 0).highWaterWords = 17)
    ∧ ∃ c₀ tr c, Boot .mapped c₀ ∧ Run c₀ tr c ∧ (∀ x ∈ tr, x.KeepsUsage 0)
      ∧ tr.length = 7 ∧ (c.kernel.tasks 0).highWaterWords = 18 := by
  have hfill : ((bottomRun jrtTaskStackFill).any fun r =>
      decide (0 < r.2.kernel.taskCount ∧ r.1.length = 7
        ∧ (r.2.kernel.tasks 0).highWaterWords = 17)) = true := by decide +kernel
  have hmark : ((bottomRun 1).any fun r => r.1.all (Transition.marksBottom 0)
      && decide (0 < r.2.kernel.taskCount ∧ r.1.length = 7
        ∧ (r.2.kernel.tasks 0).highWaterWords = 18)) = true := by decide +kernel
  constructor
  · obtain ⟨⟨tr, c⟩, hrun, hchecks⟩ := (Option.any_eq_true _ _).mp hfill
    obtain ⟨hcount, hlength, hwords⟩ := of_decide_eq_true hchecks
    obtain ⟨c₀, hboot, hrun⟩ := bottomRun_run hrun
    obtain ⟨hcovers, hiff⟩ := usedWords_lifetime Image.mapped_linked Image.mapped_stacksBuilt hboot
      hrun (hrun.taskCount ▸ hcount)
    exact ⟨c₀, tr, c, hboot, hrun, hcovers, hiff, hlength, hwords⟩
  · obtain ⟨⟨tr, c⟩, hrun, hchecks⟩ := (Option.any_eq_true _ _).mp hmark
    obtain ⟨hmarks, hchecks⟩ := Bool.and_eq_true_iff.mp hchecks
    obtain ⟨hcount, hlength, hwords⟩ := of_decide_eq_true hchecks
    obtain ⟨c₀, hboot, hrun⟩ := bottomRun_run hrun
    obtain ⟨-, hiff⟩ := usedWords_lifetime Image.mapped_linked Image.mapped_stacksBuilt hboot
      hrun (hrun.taskCount ▸ hcount)
    refine ⟨c₀, tr, c, hboot, hrun, hiff.mpr fun x hx => ?_, hlength, hwords⟩
    exact .of_bottom (List.all_eq_true.mp hmarks x hx)

end JustRT
