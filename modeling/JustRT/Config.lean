import JustRT.Ledger
import JustRT.MpuRegion
import Mathlib.Order.CompletePartialOrder
import Mathlib.Order.Interval.Set.Disjoint

/-!
# Valid configurations

What a configuration must be like, in terms of address ranges, and that
`JRT_KernelInit` accepts just those. The checks compare 32-bit addresses
that may wrap, and each pair of ranges once, against the earlier entries;
that this is enough rests on the earlier entries having passed their own
checks, so the checks of the whole table are compared with the whole
specification.
-/

namespace JustRT

/-! ## The specification -/

/-- What the build settles: the storage of the two internal tasks is aligned
and does not wrap, and the sections are where the linker script puts them,
above address zero and in the lower half. None of this is looked at when the
kernel runs. -/
structure Image.Linked (img : Image) : Prop where
  idle_aligned : 32 ∣ img.idleTaskStorage.toNat
  idle_end : img.idleTaskStorage.toNat + 32 + 4 * img.jrtIdleStackWords.toNat < 2 ^ 32
  service_aligned : 32 ∣ img.timerServiceTaskStorage.toNat
  service_end :
    img.timerServiceTaskStorage.toNat + 32 + 4 * img.jrtTimerServiceStackWords.toNat < 2 ^ 32
  private_pos : 0 < img.sections.taskPrivateDataStart.toNat
  sections : img.sections.InLowerHalf

def JrtTaskDefinition.stackRange (d : JrtTaskDefinition) : Set Nat :=
  Set.Ico d.stackGuard.toNat (d.stackBuffer.toNat + 4 * d.stackWords.toNat)

def JrtTaskDefinition.privateRange (d : JrtTaskDefinition) : Set Nat :=
  Set.Ico d.privateDataBase.toNat (d.privateDataBase.toNat + d.privateDataSize.toNat)

def Image.idleRange (img : Image) : Set Nat :=
  Set.Ico img.idleTaskStorage.toNat
    (img.idleTaskStorage.toNat + 32 + 4 * img.jrtIdleStackWords.toNat)

def Image.timerServiceRange (img : Image) : Set Nat :=
  Set.Ico img.timerServiceTaskStorage.toNat
    (img.timerServiceTaskStorage.toNat + 32 + 4 * img.jrtTimerServiceStackWords.toNat)

/-- A stack of its own: even, long enough, aligned, immediately above its
aligned guard, and below the end of the address space. -/
structure ValidStack (img : Image) (d : JrtTaskDefinition) : Prop where
  buffer_ne : d.stackBuffer ≠ 0
  guard_ne : d.stackGuard ≠ 0
  words_le : img.jrtMinimumTaskStackWords ≤ d.stackWords
  words_even : 2 ∣ d.stackWords.toNat
  buffer_aligned : 8 ∣ d.stackBuffer.toNat
  guard_aligned : 32 ∣ d.stackGuard.toNat
  adjacent : d.stackBuffer.toNat = d.stackGuard.toNat + 32
  end_lt : d.stackBuffer.toNat + 4 * d.stackWords.toNat < 2 ^ 32

/-- A private region of its own: a power of two, aligned to itself, of an
unprivileged task, in its section. -/
structure ValidRegion (img : Image) (d : JrtTaskDefinition) : Prop where
  size_pow : ∃ k, 5 ≤ k ∧ d.privateDataSize.toNat = 2 ^ k
  aligned : d.privateDataSize.toNat ∣ d.privateDataBase.toNat
  unprivileged : d.flags &&& jrtTaskFlagUnprivileged ≠ 0
  start_le : img.sections.taskPrivateDataStart.toNat ≤ d.privateDataBase.toNat
  le_end : d.privateDataBase.toNat + d.privateDataSize.toNat
    ≤ img.sections.taskPrivateDataEnd.toNat

def JrtTaskDefinition.NoRegion (d : JrtTaskDefinition) : Prop :=
  d.privateDataBase = 0 ∧ d.privateDataSize = 0

/-- A table of `taskCount` definitions the kernel can run: what the loops of
the validation are to find out, said without loops. Ranges are sets of
addresses as natural numbers, so no end of one wraps. -/
structure ValidTable (img : Image) (tasks : Nat → JrtTaskDefinition) (taskCount : Nat) :
    Prop where
  entry : ∀ i < taskCount, (tasks i).entry ≠ 0
  priority : ∀ i < taskCount, (tasks i).priority ≤ img.jrtMaxTaskPriority
  stack : ∀ i < taskCount, ValidStack img (tasks i)
  stack_disjoint : ∀ i < taskCount, ∀ j < taskCount, i ≠ j →
    Disjoint (tasks i).stackRange (tasks j).stackRange
  region : ∀ i < taskCount, (tasks i).NoRegion ∨ ValidRegion img (tasks i)
  region_stack : ∀ i < taskCount, ∀ j < taskCount,
    Disjoint (tasks i).privateRange (tasks j).stackRange
  region_service : ∀ i < taskCount, Disjoint (tasks i).privateRange img.timerServiceRange
  region_idle : ∀ i < taskCount, Disjoint (tasks i).privateRange img.idleRange
  region_disjoint : ∀ i < taskCount, ∀ j < taskCount, i ≠ j →
    Disjoint (tasks i).privateRange (tasks j).privateRange

def ValidConfig (img : Image) (config : Option JrtKernelConfig) : Prop :=
  ∃ c tasks, config = some c ∧ c.tasks = some tasks ∧ 1 ≤ c.taskCount
    ∧ c.taskCount ≤ img.jrtMaxApplicationTasks ∧ ValidTable img tasks c.taskCount

/-! ## Tests on words -/

theorem and_mask_eq_zero_iff {m : UInt32} {j : Nat} (hmask : m.toNat = 2 ^ j - 1)
    (x : UInt32) : x &&& m = 0 ↔ 2 ^ j ∣ x.toNat := by
  rw [← UInt32.toNat_inj, UInt32.toNat_and, hmask, Nat.and_two_pow_sub_one_eq_mod]
  exact (Nat.dvd_iff_mod_eq_zero).symm

theorem toNat_sub_one {x : UInt32} (h : x ≠ 0) : (x - 1).toNat = x.toNat - 1 := by
  have hpos : x.toNat ≠ 0 := fun h0 => h (UInt32.toNat_inj.mp h0)
  rw [UInt32.toNat_sub_of_le]
  · rfl
  · rw [UInt32.le_iff_toNat_le]
    exact Nat.one_le_iff_ne_zero.mpr hpos

theorem and_sub_one_eq_zero_iff {x : UInt32} (h : x ≠ 0) :
    x &&& (x - 1) = 0 ↔ ∃ k, x.toNat = 2 ^ k := by
  have hpos : x.toNat ≠ 0 := fun h0 => h (UInt32.toNat_inj.mp h0)
  rw [← UInt32.toNat_inj, UInt32.toNat_and, toNat_sub_one h]
  exact Nat.and_sub_one_eq_zero_iff_isPowerOfTwo hpos

/-- The overlap test, on ranges that are not empty. -/
theorem rangesOverlap_eq_false_iff {a b c d : UInt32} (hab : a.toNat < b.toNat)
    (hcd : c.toNat < d.toNat) :
    rangesOverlap a b c d = false
      ↔ Disjoint (Set.Ico a.toNat b.toNat) (Set.Ico c.toNat d.toNat) := by
  rw [Set.Ico_disjoint_Ico, rangesOverlap, decide_eq_false_iff_not, UInt32.lt_iff_toNat_lt,
    UInt32.lt_iff_toNat_lt]
  omega

/-! ## Stacks -/

theorem ValidStack.toNat_stackEnd {img : Image} {d : JrtTaskDefinition} (h : ValidStack img d) :
    d.stackEnd.toNat = d.stackBuffer.toNat + 4 * d.stackWords.toNat := by
  have hend := h.end_lt
  rw [JrtTaskDefinition.stackEnd, UInt32.toNat_add, UInt32.toNat_mul]
  change (d.stackBuffer.toNat + d.stackWords.toNat * 4 % 2 ^ 32) % 2 ^ 32 = _
  omega

theorem ValidStack.stackRange_eq {img : Image} {d : JrtTaskDefinition} (h : ValidStack img d) :
    d.stackRange = Set.Ico d.stackGuard.toNat d.stackEnd.toNat := by
  rw [JrtTaskDefinition.stackRange, h.toNat_stackEnd]

theorem ValidStack.guard_lt_end {img : Image} {d : JrtTaskDefinition} (h : ValidStack img d) :
    d.stackGuard.toNat < d.stackEnd.toNat := by
  have hadjacent := h.adjacent
  rw [h.toNat_stackEnd]
  omega

/-- The checks of `validate_task_stack` on the definition itself. -/
theorem validStack_iff (img : Image) (d : JrtTaskDefinition) :
    (¬ (d.stackBuffer = 0 ∨ d.stackGuard = 0 ∨ d.stackWords < img.jrtMinimumTaskStackWords
        ∨ d.stackWords &&& 1 ≠ 0 ∨ d.stackBuffer &&& 7 ≠ 0 ∨ d.stackGuard &&& 31 ≠ 0
        ∨ d.stackGuard + 32 ≠ d.stackBuffer ∨ d.stackWords > 4294967295 / 4)
      ∧ ¬ d.stackEnd < d.stackBuffer) ↔ ValidStack img d := by
  have heven := and_mask_eq_zero_iff (m := 1) (j := 1) rfl d.stackWords
  have hbuffer := and_mask_eq_zero_iff (m := 7) (j := 3) rfl d.stackBuffer
  have hguard := and_mask_eq_zero_iff (m := 31) (j := 5) rfl d.stackGuard
  have hadd : (d.stackGuard + 32).toNat = (d.stackGuard.toNat + 32) % 2 ^ 32 := UInt32.toNat_add _ _
  have hend : d.stackEnd.toNat
      = (d.stackBuffer.toNat + d.stackWords.toNat * 4 % 2 ^ 32) % 2 ^ 32 := by
    rw [JrtTaskDefinition.stackEnd, UInt32.toNat_add, UInt32.toNat_mul]
    rfl
  have hmax : d.stackWords > 4294967295 / 4 ↔ 1073741823 < d.stackWords.toNat :=
    UInt32.lt_iff_toNat_lt
  have hltb := d.stackBuffer.toNat_lt
  have hltg := d.stackGuard.toNat_lt
  simp only [not_or, ne_eq, not_not, heven, hbuffer, hguard, hmax, UInt32.not_lt]
  constructor
  · rintro ⟨⟨hb, hg, hmin, hw, hb8, hg32, hadj, hle⟩, hnowrap⟩
    have hbpos : d.stackBuffer.toNat ≠ 0 := fun h0 => hb (UInt32.toNat_inj.mp h0)
    rw [← UInt32.toNat_inj, hadd] at hadj
    rw [UInt32.le_iff_toNat_le, hend] at hnowrap
    exact ⟨hb, hg, hmin, hw, hb8, hg32, by omega, by omega⟩
  · intro h
    have hadj := h.adjacent
    have hlt := h.end_lt
    refine ⟨⟨h.buffer_ne, h.guard_ne, h.words_le, h.words_even, h.buffer_aligned,
      h.guard_aligned, ?_, by omega⟩, ?_⟩
    · rw [← UInt32.toNat_inj, hadd]
      omega
    · rw [UInt32.le_iff_toNat_le, hend]
      omega

theorem validateTaskStack_eq_ok_iff (img : Image) (tasks : Nat → JrtTaskDefinition)
    (index : Nat) :
    validateTaskStack img tasks index = .ok ↔ ValidStack img (tasks index) ∧
      ∀ previous < index, ¬ ((tasks index).stackGuard < (tasks previous).stackEnd
        ∧ (tasks previous).stackGuard < (tasks index).stackEnd) := by
  rw [← validStack_iff]
  simp only [validateTaskStack]
  split
  · next hshape =>
      constructor
      · intro h
        cases h
      · rintro ⟨⟨hnot, -⟩, -⟩
        exact absurd hshape hnot
  · next hshape =>
      split
      · next hwrap =>
          constructor
          · intro h
            cases h
          · rintro ⟨⟨-, hnot⟩, -⟩
            exact absurd hwrap hnot
      · next hwrap =>
          split
          · next hany =>
              simp only [List.any_eq_true, List.mem_range, decide_eq_true_eq] at hany
              obtain ⟨previous, hlt, hoverlap⟩ := hany
              constructor
              · intro h
                cases h
              · rintro ⟨-, hprevious⟩
                exact absurd hoverlap (hprevious previous hlt)
          · next hany =>
              simp only [List.any_eq_true, List.mem_range, decide_eq_true_eq, not_exists,
                not_and] at hany
              exact ⟨fun _ => ⟨⟨hshape, hwrap⟩, fun p hp ho => hany p hp ho.1 ho.2⟩, fun _ => rfl⟩

/-- The first loop of `JRT_KernelInit`, over the whole table. Each stack is
compared with those before it, which have passed. -/
theorem firstFailure_eq_ok_iff (taskCount : Nat) (validate : Nat → JrtStatus) :
    firstFailure taskCount validate = .ok ↔ ∀ i < taskCount, validate i = .ok := by
  rw [firstFailure]
  cases hfind : ((List.range taskCount).map validate).find? (· != .ok) with
  | none =>
      simpa using hfind
  | some status =>
      have hne : status ≠ .ok := by simpa using List.find?_some hfind
      obtain ⟨i, hi, hstatus⟩ := List.mem_map.mp (List.mem_of_find?_eq_some hfind)
      constructor
      · intro h
        exact absurd h hne
      · intro h
        exact absurd (hstatus ▸ h i (List.mem_range.mp hi)) hne

theorem validateDefinition_eq_ok_iff (img : Image) (tasks : Nat → JrtTaskDefinition)
    (index : Nat) :
    validateDefinition img tasks index = .ok ↔ (tasks index).entry ≠ 0
      ∧ (tasks index).priority ≤ img.jrtMaxTaskPriority
      ∧ validateTaskStack img tasks index = .ok := by
  simp only [validateDefinition]
  split
  · next hentry => simp [hentry]
  · next hentry =>
      split
      · next hpriority => simp [Nat.not_le.mpr hpriority]
      · next hpriority =>
          split
          · next hstack => simp [hstack]
          · next hstack => simp [hentry, Nat.le_of_not_lt hpriority, not_not.mp hstack]

/-- The test `validate_task_stack` makes of two valid stacks. -/
theorem ValidStack.disjoint_iff {img : Image} {d e : JrtTaskDefinition} (hd : ValidStack img d)
    (he : ValidStack img e) :
    ¬ (d.stackGuard < e.stackEnd ∧ e.stackGuard < d.stackEnd)
      ↔ Disjoint d.stackRange e.stackRange := by
  rw [hd.stackRange_eq, he.stackRange_eq,
    ← rangesOverlap_eq_false_iff hd.guard_lt_end he.guard_lt_end, rangesOverlap,
    decide_eq_false_iff_not]

theorem validateDefinitions_iff (img : Image) (tasks : Nat → JrtTaskDefinition)
    (taskCount : Nat) :
    firstFailure taskCount (validateDefinition img tasks) = .ok
      ↔ (∀ i < taskCount, (tasks i).entry ≠ 0 ∧ (tasks i).priority ≤ img.jrtMaxTaskPriority
          ∧ ValidStack img (tasks i))
        ∧ ∀ i < taskCount, ∀ j < taskCount, i ≠ j →
          Disjoint (tasks i).stackRange (tasks j).stackRange := by
  simp only [firstFailure_eq_ok_iff, validateDefinition_eq_ok_iff, validateTaskStack_eq_ok_iff]
  constructor
  · intro h
    refine ⟨fun i hi => ⟨(h i hi).1, (h i hi).2.1, (h i hi).2.2.1⟩, ?_⟩
    have hlater : ∀ i < taskCount, ∀ j < i, Disjoint (tasks i).stackRange (tasks j).stackRange := by
      intro i hi j hj
      have hvalid := (h j (Nat.lt_trans hj hi)).2.2.1
      exact ((h i hi).2.2.1.disjoint_iff hvalid).mp ((h i hi).2.2.2 j hj)
    intro i hi j hj hij
    rcases Nat.lt_or_gt_of_ne hij with hlt | hlt
    · exact (hlater j hj i hlt).symm
    · exact hlater i hi j hlt
  · rintro ⟨hvalid, hdisjoint⟩ i hi
    obtain ⟨hentry, hpriority, hstack⟩ := hvalid i hi
    refine ⟨hentry, hpriority, hstack, fun j hj => ?_⟩
    have hj' : j < taskCount := Nat.lt_trans hj hi
    exact (hstack.disjoint_iff (hvalid j hj').2.2).mpr (hdisjoint i hi j hj' (Nat.ne_of_gt hj))

/-! ## Private regions -/

theorem ValidRegion.base_pos {img : Image} (himg : img.Linked) {d : JrtTaskDefinition}
    (h : ValidRegion img d) : 0 < d.privateDataBase.toNat :=
  Nat.lt_of_lt_of_le himg.private_pos h.start_le

theorem ValidRegion.size_pos {img : Image} {d : JrtTaskDefinition} (h : ValidRegion img d) :
    0 < d.privateDataSize.toNat := by
  obtain ⟨k, -, hk⟩ := h.size_pow
  rw [hk]
  exact Nat.two_pow_pos k

theorem ValidRegion.toNat_stop {img : Image} {d : JrtTaskDefinition} (h : ValidRegion img d) :
    (d.privateDataBase + d.privateDataSize).toNat
      = d.privateDataBase.toNat + d.privateDataSize.toNat := by
  have hend := h.le_end
  have hlt := img.sections.taskPrivateDataEnd.toNat_lt
  rw [UInt32.toNat_add]
  exact Nat.mod_eq_of_lt (by omega)

theorem ValidRegion.privateRange_eq {img : Image} {d : JrtTaskDefinition}
    (h : ValidRegion img d) :
    d.privateRange
      = Set.Ico d.privateDataBase.toNat (d.privateDataBase + d.privateDataSize).toNat := by
  rw [JrtTaskDefinition.privateRange, h.toNat_stop]

theorem ValidRegion.base_lt_stop {img : Image} {d : JrtTaskDefinition} (h : ValidRegion img d) :
    d.privateDataBase.toNat < (d.privateDataBase + d.privateDataSize).toNat := by
  have hpos := h.size_pos
  rw [h.toNat_stop]
  omega

/-- Without a region there is nothing to overlap. -/
theorem JrtTaskDefinition.NoRegion.privateRange_eq {d : JrtTaskDefinition} (h : d.NoRegion) :
    d.privateRange = ∅ := by
  rw [JrtTaskDefinition.privateRange, h.1, h.2]
  exact Set.Ico_self _

/-- The checks of `validate_private_region` on the region itself. -/
theorem validRegion_iff {img : Image} (himg : img.Linked) (d : JrtTaskDefinition) :
    (¬ (d.privateDataBase = 0 ∨ d.privateDataSize < 32
        ∨ d.privateDataSize &&& (d.privateDataSize - 1) ≠ 0
        ∨ d.privateDataBase &&& (d.privateDataSize - 1) ≠ 0
        ∨ d.flags &&& jrtTaskFlagUnprivileged = 0)
      ∧ ¬ (d.privateDataBase + d.privateDataSize < d.privateDataBase
        ∨ d.privateDataBase < img.sections.taskPrivateDataStart
        ∨ d.privateDataBase + d.privateDataSize > img.sections.taskPrivateDataEnd))
      ↔ ValidRegion img d := by
  have hstop : (d.privateDataBase + d.privateDataSize).toNat
      = (d.privateDataBase.toNat + d.privateDataSize.toNat) % 2 ^ 32 := UInt32.toNat_add _ _
  have hltb := d.privateDataBase.toNat_lt
  have hlts := d.privateDataSize.toNat_lt
  have hlte := img.sections.taskPrivateDataEnd.toNat_lt
  have hmask {k : Nat} (hk : d.privateDataSize.toNat = 2 ^ k) :
      d.privateDataBase &&& (d.privateDataSize - 1) = 0
        ↔ d.privateDataSize.toNat ∣ d.privateDataBase.toNat := by
    rw [hk]
    refine and_mask_eq_zero_iff ?_ _
    rw [toNat_sub_one, hk]
    intro h0
    have hpos := Nat.two_pow_pos k
    rw [← hk, h0] at hpos
    exact absurd hpos (by decide)
  simp only [not_or, ne_eq, not_not, UInt32.not_lt, gt_iff_lt, UInt32.le_iff_toNat_le, hstop]
  constructor
  · rintro ⟨⟨-, hmin, hpow, halign, hflags⟩, hnowrap, hstart, hend⟩
    change 32 ≤ d.privateDataSize.toNat at hmin
    have hne : d.privateDataSize ≠ 0 := by
      intro h0
      rw [h0] at hmin
      exact absurd hmin (by decide)
    obtain ⟨k, hk⟩ := (and_sub_one_eq_zero_iff hne).mp hpow
    refine ⟨⟨k, ?_, hk⟩, (hmask hk).mp halign, hflags, hstart, by omega⟩
    rw [hk] at hmin
    exact (Nat.pow_le_pow_iff_right Nat.one_lt_two).mp (show 2 ^ 5 ≤ 2 ^ k from hmin)
  · intro h
    obtain ⟨k, hk5, hk⟩ := h.size_pow
    have hbase := h.base_pos himg
    have hsize := h.size_pos
    have hend := h.le_end
    refine ⟨⟨?_, ?_, ?_, (hmask hk).mpr h.aligned, h.unprivileged⟩, by omega, h.start_le,
      by omega⟩
    · intro h0
      rw [h0] at hbase
      exact absurd hbase (by decide)
    · change 2 ^ 5 ≤ d.privateDataSize.toNat
      rw [hk]
      exact Nat.pow_le_pow_right Nat.zero_lt_two hk5
    · refine (and_sub_one_eq_zero_iff ?_).mpr ⟨k, hk⟩
      intro h0
      rw [h0] at hsize
      exact absurd hsize (by decide)

/-- The storage of an internal task, as the code adds it up. -/
theorem toNat_storageEnd {storage words : UInt32} (h : storage.toNat + 32 + 4 * words.toNat < 2 ^ 32) :
    (storage + 32 + words * 4).toNat = storage.toNat + 32 + 4 * words.toNat := by
  rw [UInt32.toNat_add, UInt32.toNat_add, UInt32.toNat_mul]
  change ((storage.toNat + 32) % 2 ^ 32 + words.toNat * 4 % 2 ^ 32) % 2 ^ 32 = _
  omega

/-- The overlap test of a valid region against an internal task's storage. -/
theorem ValidRegion.storage_iff {img : Image} {d : JrtTaskDefinition} (h : ValidRegion img d)
    {storage words : UInt32} (hend : storage.toNat + 32 + 4 * words.toNat < 2 ^ 32) :
    rangesOverlap d.privateDataBase (d.privateDataBase + d.privateDataSize) storage
        (storage + 32 + words * 4) = false
      ↔ Disjoint d.privateRange
          (Set.Ico storage.toNat (storage.toNat + 32 + 4 * words.toNat)) := by
  have hnat := toNat_storageEnd hend
  rw [h.privateRange_eq, ← hnat, rangesOverlap_eq_false_iff h.base_lt_stop (by omega)]

theorem validatePrivateRegion_eq_ok_iff {img : Image} (himg : img.Linked)
    (tasks : Nat → JrtTaskDefinition) (taskCount index : Nat) :
    validatePrivateRegion img tasks taskCount index = .ok
      ↔ (tasks index).NoRegion ∨ ValidRegion img (tasks index)
        ∧ (∀ other < taskCount,
            rangesOverlap (tasks index).privateDataBase
                ((tasks index).privateDataBase + (tasks index).privateDataSize)
                (tasks other).stackGuard (tasks other).stackEnd = false
              ∧ (other < index → (tasks other).privateDataBase ≠ 0 →
                rangesOverlap (tasks index).privateDataBase
                  ((tasks index).privateDataBase + (tasks index).privateDataSize)
                  (tasks other).privateDataBase
                  ((tasks other).privateDataBase + (tasks other).privateDataSize) = false))
        ∧ Disjoint (tasks index).privateRange img.timerServiceRange
        ∧ Disjoint (tasks index).privateRange img.idleRange := by
  have hvalid := validRegion_iff himg (tasks index)
  simp only [validatePrivateRegion]
  split
  · next hnone => simp [JrtTaskDefinition.NoRegion, hnone]
  · next hnone =>
      rw [JrtTaskDefinition.NoRegion, or_iff_right hnone]
      split
      · next hshape =>
          constructor
          · intro h
            cases h
          · intro h
            exact absurd hshape (hvalid.mpr h.1).1
      · next hshape =>
          split
          · next hplace =>
              constructor
              · intro h
                cases h
              · intro h
                exact absurd hplace (hvalid.mpr h.1).2
          · next hplace =>
              have hv := hvalid.mp ⟨hshape, hplace⟩
              have hservice := hv.storage_iff himg.service_end
              have hidle := hv.storage_iff himg.idle_end
              split
              · next hany =>
                  simp only [List.any_eq_true, List.mem_range, Bool.or_eq_true, Bool.and_eq_true,
                    decide_eq_true_eq, bne_iff_ne] at hany
                  obtain ⟨other, hother, hoverlap⟩ := hany
                  constructor
                  · intro h
                    cases h
                  · rintro ⟨-, hno, -⟩
                    obtain ⟨hstack, hregion⟩ := hno other hother
                    rcases hoverlap with hoverlap | ⟨⟨hlt, hne⟩, hoverlap⟩
                    · exact absurd (hstack.symm.trans hoverlap) Bool.false_ne_true
                    · exact absurd ((hregion hlt hne).symm.trans hoverlap) Bool.false_ne_true
              · next hany =>
                  have hno : ∀ other < taskCount, _ ∧ _ := fun other hother => by
                    have h := mt (List.any_eq_true.mpr ⟨other, List.mem_range.mpr hother, ·⟩) hany
                    simp only [Bool.or_eq_true, Bool.and_eq_true, decide_eq_true_eq, bne_iff_ne,
                      not_or, not_and, Bool.not_eq_true] at h
                    exact ⟨h.1, fun hlt hne => h.2 ⟨hlt, hne⟩⟩
                  rw [Image.timerServiceRange, Image.idleRange, ← hservice, ← hidle]
                  split
                  · next hinternal =>
                      constructor
                      · intro h
                        cases h
                      · rintro ⟨-, -, hs, hi⟩
                        rw [hs, hi] at hinternal
                        simp at hinternal
                  · next hinternal =>
                      rw [not_or, Bool.not_eq_true, Bool.not_eq_true] at hinternal
                      exact ⟨fun _ => ⟨hv, hno, hinternal⟩, fun _ => rfl⟩

/-- The second loop of `JRT_KernelInit`, on a table whose stacks have
passed the first. -/
theorem validatePrivateRegions_iff {img : Image} (himg : img.Linked)
    (tasks : Nat → JrtTaskDefinition) (taskCount : Nat)
    (hstack : ∀ i < taskCount, ValidStack img (tasks i)) :
    firstFailure taskCount (validatePrivateRegion img tasks taskCount) = .ok
      ↔ (∀ i < taskCount, (tasks i).NoRegion ∨ ValidRegion img (tasks i))
        ∧ (∀ i < taskCount, ∀ j < taskCount,
            Disjoint (tasks i).privateRange (tasks j).stackRange)
        ∧ (∀ i < taskCount, Disjoint (tasks i).privateRange img.timerServiceRange)
        ∧ (∀ i < taskCount, Disjoint (tasks i).privateRange img.idleRange)
        ∧ ∀ i < taskCount, ∀ j < taskCount, i ≠ j →
            Disjoint (tasks i).privateRange (tasks j).privateRange := by
  have hstacks {i j : Nat} (hi : ValidRegion img (tasks i)) (hj : j < taskCount) :
      rangesOverlap (tasks i).privateDataBase
          ((tasks i).privateDataBase + (tasks i).privateDataSize)
          (tasks j).stackGuard (tasks j).stackEnd = false
        ↔ Disjoint (tasks i).privateRange (tasks j).stackRange := by
    rw [hi.privateRange_eq, (hstack j hj).stackRange_eq]
    exact rangesOverlap_eq_false_iff hi.base_lt_stop (hstack j hj).guard_lt_end
  have hregions {i j : Nat} (hi : ValidRegion img (tasks i)) (hj : ValidRegion img (tasks j)) :
      rangesOverlap (tasks i).privateDataBase
          ((tasks i).privateDataBase + (tasks i).privateDataSize)
          (tasks j).privateDataBase ((tasks j).privateDataBase + (tasks j).privateDataSize) = false
        ↔ Disjoint (tasks i).privateRange (tasks j).privateRange := by
    rw [hi.privateRange_eq, hj.privateRange_eq]
    exact rangesOverlap_eq_false_iff hi.base_lt_stop hj.base_lt_stop
  have hempty {i : Nat} (hi : (tasks i).NoRegion) (s : Set Nat) :
      Disjoint (tasks i).privateRange s := by
    rw [hi.privateRange_eq]
    exact Set.empty_disjoint s
  simp only [firstFailure_eq_ok_iff, validatePrivateRegion_eq_ok_iff himg]
  constructor
  · intro h
    have hlater : ∀ i < taskCount, ∀ j < i,
        Disjoint (tasks i).privateRange (tasks j).privateRange := by
      intro i hi j hj
      have hj' : j < taskCount := Nat.lt_trans hj hi
      rcases h i hi with hnone | ⟨hvalid, hother, -⟩
      · exact hempty hnone _
      · rcases h j hj' with hnone | ⟨hvalid', -⟩
        · exact (hempty hnone _).symm
        · refine (hregions hvalid hvalid').mp ((hother j hj').2 hj fun h0 => ?_)
          have hpos := hvalid'.base_pos himg
          rw [h0] at hpos
          exact Nat.lt_irrefl _ hpos
    refine ⟨fun i hi => (h i hi).imp_right And.left, ?_, ?_, ?_, ?_⟩
    · intro i hi j hj
      rcases h i hi with hnone | ⟨hvalid, hother, -⟩
      · exact hempty hnone _
      · exact (hstacks hvalid hj).mp (hother j hj).1
    · intro i hi
      rcases h i hi with hnone | ⟨-, -, hservice, -⟩
      · exact hempty hnone _
      · exact hservice
    · intro i hi
      rcases h i hi with hnone | ⟨-, -, -, hidle⟩
      · exact hempty hnone _
      · exact hidle
    · intro i hi j hj hij
      rcases Nat.lt_or_gt_of_ne hij with hlt | hlt
      · exact (hlater j hj i hlt).symm
      · exact hlater i hi j hlt
  · rintro ⟨hregion, hrstack, hservice, hidle, hdisjoint⟩ i hi
    refine (hregion i hi).imp_right fun hvalid => ⟨hvalid, ?_, hservice i hi, hidle i hi⟩
    intro j hj
    refine ⟨(hstacks hvalid hj).mpr (hrstack i hi j hj), fun hlt hne => ?_⟩
    rcases hregion j hj with hnone | hvalid'
    · exact absurd hnone.1 hne
    · exact (hregions hvalid hvalid').mpr (hdisjoint i hi j hj (Nat.ne_of_gt hlt))

/-! ## Acceptance -/

theorem validTable_iff {img : Image} (himg : img.Linked) (tasks : Nat → JrtTaskDefinition)
    (taskCount : Nat) :
    (firstFailure taskCount (validateDefinition img tasks) = .ok
      ∧ firstFailure taskCount (validatePrivateRegion img tasks taskCount) = .ok)
      ↔ ValidTable img tasks taskCount := by
  rw [validateDefinitions_iff]
  constructor
  · rintro ⟨⟨hdefinition, hstacks⟩, hregions⟩
    have hstack : ∀ i < taskCount, ValidStack img (tasks i) := fun i hi => (hdefinition i hi).2.2
    obtain ⟨hregion, hrstack, hservice, hidle, hdisjoint⟩ :=
      (validatePrivateRegions_iff himg tasks taskCount hstack).mp hregions
    exact
      { entry := fun i hi => (hdefinition i hi).1
        priority := fun i hi => (hdefinition i hi).2.1
        stack := hstack
        stack_disjoint := hstacks
        region := hregion
        region_stack := hrstack
        region_service := hservice
        region_idle := hidle
        region_disjoint := hdisjoint }
  · intro h
    refine ⟨⟨fun i hi => ⟨h.entry i hi, h.priority i hi, h.stack i hi⟩, h.stack_disjoint⟩, ?_⟩
    exact (validatePrivateRegions_iff himg tasks taskCount h.stack).mpr
      ⟨h.region, h.region_stack, h.region_service, h.region_idle, h.region_disjoint⟩

/-- The private range of a valid table's task can be mapped. -/
theorem ValidTable.mappable {img : Image} {tasks : Nat → JrtTaskDefinition} {taskCount i : Nat}
    (h : ValidTable img tasks taskCount) (hi : i < taskCount) :
    Mappable (tasks i).privateDataBase (tasks i).privateDataSize := by
  rcases h.region i hi with hnone | hvalid
  · exact Or.inl hnone.2
  · obtain ⟨k, hk5, hk⟩ := hvalid.size_pow
    exact Or.inr ⟨k, hk5, hk, hk ▸ hvalid.aligned⟩

/-- The private range of a valid table's task can be mapped, and so can its
guard. -/
theorem ValidTable.guard_aligned {img : Image} {tasks : Nat → JrtTaskDefinition}
    {taskCount i : Nat} (h : ValidTable img tasks taskCount) (hi : i < taskCount) :
    (tasks i).setup.stackBottom - 32 = (tasks i).stackGuard ∧ 32 ∣ (tasks i).stackGuard.toNat
      ∧ (tasks i).stackGuard ≠ 0 := by
  have hstack := h.stack i hi
  refine ⟨?_, hstack.guard_aligned, hstack.guard_ne⟩
  have hadjacent := hstack.adjacent
  have hle : (32 : UInt32) ≤ (tasks i).stackBuffer := by
    rw [UInt32.le_iff_toNat_le, hadjacent]
    exact Nat.le_add_left _ _
  change (tasks i).stackBuffer - 32 = (tasks i).stackGuard
  rw [← UInt32.toNat_inj, UInt32.toNat_sub_of_le _ _ hle, hadjacent]
  exact Nat.add_sub_cancel _ _

/-- What `JRT_KernelInit` gives the memory protection unit of a valid
table: the first task's private range and guard. -/
theorem ValidTable.configureMpu {img : Image} (himg : img.Linked) {k : Kernel}
    {tasks : Nat → JrtTaskDefinition} {taskCount : Nat} (hpos : 0 < taskCount)
    (h : ValidTable img tasks taskCount) :
    ∃ mpu, archConfigureMpu (kernelPrepared img k tasks taskCount).mpu img.sections
        (taskStackGuard ((kernelPrepared img k tasks taskCount).tasks 0))
        ((kernelPrepared img k tasks taskCount).tasks 0).privateDataBase
        ((kernelPrepared img k tasks taskCount).tasks 0).privateDataSize = .ok mpu
      ∧ mpu.hasMpu = k.mpu.hasMpu
      ∧ mpu.gMpuPrivateDataBase = (tasks 0).privateDataBase
      ∧ mpu.gMpuPrivateDataSize = (tasks 0).privateDataSize
      ∧ mpu.gMpuStackGuardBase = (tasks 0).stackGuard
      ∧ (k.mpu.hasMpu = true → mpu.Coherent ∧ mpu.ctrl = mpuCtrlEnable ||| mpuCtrlPrivdefena
          ∧ ∀ row ∈ img.sections.staticMap, Mapped (mpu.region row.1) row.2.1 row.2.2) := by
  have hledger := (kernelPrepared_ledger img k tasks taskCount).2 0 (by omega)
  rw [Image.setups, if_pos hpos] at hledger
  have hsetup : ((kernelPrepared img k tasks taskCount).tasks 0).setup = (tasks 0).setup :=
    congrArg TaskLedger.setup hledger
  have hbottom : taskStackGuard ((kernelPrepared img k tasks taskCount).tasks 0)
      = (tasks 0).setup.stackBottom - 32 := congrArg (fun s => s.stackBottom - 32) hsetup
  have hbase : ((kernelPrepared img k tasks taskCount).tasks 0).privateDataBase
      = (tasks 0).privateDataBase := congrArg TaskSetup.privateDataBase hsetup
  have hsize : ((kernelPrepared img k tasks taskCount).tasks 0).privateDataSize
      = (tasks 0).privateDataSize := congrArg TaskSetup.privateDataSize hsetup
  obtain ⟨hguard, haligned, hne⟩ := h.guard_aligned hpos
  rw [hbottom, hbase, hsize, hguard, kernelPrepared_mpu]
  exact archConfigureMpu_spec k.mpu himg.sections (h.mappable hpos) haligned hne

theorem kernelSetUp_ok {img : Image} (himg : img.Linked) (k : Kernel)
    {tasks : Nat → JrtTaskDefinition} {taskCount : Nat} (hpos : 0 < taskCount)
    (h : ValidTable img tasks taskCount) : ∃ k', kernelSetUp img k tasks taskCount = .ok k' := by
  obtain ⟨mpu, hmpu, -⟩ := h.configureMpu (k := k) himg hpos
  exact ⟨_, exec_bind_eq_ok.mpr ⟨mpu, hmpu, rfl⟩⟩

/-- What `JRT_KernelInit` makes of a table of permitted length. -/
theorem jrtKernelInit_table {img : Image} (himg : img.Linked) (k : Kernel)
    (tasks : Nat → JrtTaskDefinition) {taskCount : Nat} (hpos : 0 < taskCount)
    (hmax : taskCount ≤ img.jrtMaxApplicationTasks) :
    ∃ status k', jrtKernelInit img k (some ⟨some tasks, taskCount⟩) = .ok (status, k')
      ∧ (status = .ok ↔ ValidTable img tasks taskCount) ∧ (status ≠ .ok → k' = k) := by
  have hscheduler : ¬ taskCount + jrtInternalTaskCount > img.jrtMaxSchedulerTasks := by
    unfold jrtInternalTaskCount Image.jrtMaxSchedulerTasks
    omega
  simp only [jrtKernelInit]
  rw [if_neg (Nat.pos_iff_ne_zero.mp hpos), if_neg (Nat.not_lt.mpr hmax), if_neg hscheduler]
  rw [← validTable_iff himg]
  by_cases hdefinitions : firstFailure taskCount (validateDefinition img tasks) = .ok
  · rw [if_neg (not_not.mpr hdefinitions)]
    by_cases hregions : firstFailure taskCount (validatePrivateRegion img tasks taskCount) = .ok
    · rw [if_neg (not_not.mpr hregions)]
      obtain ⟨k', hsetUp⟩ :=
        kernelSetUp_ok himg k hpos ((validTable_iff himg tasks taskCount).mp ⟨hdefinitions, hregions⟩)
      refine ⟨.ok, k', exec_bind_eq_ok.mpr ⟨k', hsetUp, rfl⟩, ?_, fun hne => absurd rfl hne⟩
      exact ⟨fun _ => ⟨hdefinitions, hregions⟩, fun _ => rfl⟩
    · rw [if_pos hregions]
      refine ⟨.invalidMemoryRegion, k, rfl, ?_, fun _ => rfl⟩
      exact ⟨fun h => (by cases h), fun h => absurd h.2 hregions⟩
  · rw [if_pos hdefinitions]
    exact ⟨_, k, rfl, ⟨fun h => absurd h hdefinitions, fun h => h.1⟩, fun _ => rfl⟩

/-- `JRT_KernelInit` always returns; it returns OK on the valid
configurations and on no others, and otherwise changes nothing. -/
theorem jrtKernelInit_accepts_iff {img : Image} (himg : img.Linked) (k : Kernel)
    (config : Option JrtKernelConfig) :
    ∃ status k', jrtKernelInit img k config = .ok (status, k')
      ∧ (status = .ok ↔ ValidConfig img config) ∧ (status ≠ .ok → k' = k) := by
  -- A rejection before the table is looked at.
  have hreject : ∀ status, status ≠ .ok → ¬ ValidConfig img config →
      jrtKernelInit img k config = .ok (status, k) →
      ∃ status k', jrtKernelInit img k config = .ok (status, k')
        ∧ (status = .ok ↔ ValidConfig img config) ∧ (status ≠ .ok → k' = k) :=
    fun status hne hnot hrun =>
      ⟨status, k, hrun, ⟨fun h => absurd h hne, fun h => absurd h hnot⟩, fun _ => rfl⟩
  rcases config with _ | ⟨_ | tasks, taskCount⟩
  · refine hreject .invalidConfig (by decide) ?_ rfl
    rintro ⟨c, -, hc, -⟩
    cases hc
  · refine hreject .invalidConfig (by decide) ?_ rfl
    rintro ⟨c, tasks, hc, htasks, -⟩
    obtain rfl := Option.some.inj hc
    cases htasks
  · have hunique : ValidConfig img (some ⟨some tasks, taskCount⟩) ↔ 0 < taskCount
        ∧ taskCount ≤ img.jrtMaxApplicationTasks ∧ ValidTable img tasks taskCount := by
      constructor
      · rintro ⟨c, tasks', hc, htasks, h⟩
        obtain rfl := Option.some.inj hc
        obtain rfl := Option.some.inj htasks
        exact h
      · intro h
        exact ⟨_, tasks, rfl, rfl, h⟩
    rcases Nat.eq_zero_or_pos taskCount with rfl | hpos
    · refine hreject .invalidConfig (by decide) ?_ rfl
      rw [hunique]
      rintro ⟨h0, -⟩
      exact Nat.lt_irrefl 0 h0
    · rcases Nat.lt_or_ge img.jrtMaxApplicationTasks taskCount with hmax | hmax
      · refine hreject .tooManyTasks (by decide) ?_ ?_
        · rw [hunique]
          rintro ⟨-, hle, -⟩
          exact absurd hmax (Nat.not_lt.mpr hle)
        · simp only [jrtKernelInit]
          rw [if_neg (Nat.pos_iff_ne_zero.mp hpos), if_pos hmax]
          rfl
      · obtain ⟨status, k', hrun, hiff, hsame⟩ := jrtKernelInit_table himg k tasks hpos hmax
        refine ⟨status, k', hrun, ?_, hsame⟩
        rw [hiff, hunique]
        exact ⟨fun h => ⟨hpos, hmax, h⟩, fun h => h.2.2⟩

/-! ## A sample with private regions -/

/-- The sample image, with sections. -/
def Image.mapped : Image :=
  { Image.sample with
    sections :=
      { unprivilegedFunctionsStart := 0x00402000, unprivilegedFunctionsEnd := 0x00404000
        unprivilegedSvcStart := 0x00404000, unprivilegedSvcEnd := 0x00405000
        unprivilegedRodataStart := 0x00405000, unprivilegedRodataEnd := 0x00406000
        unprivilegedTaskDataStart := 0x2040A000, unprivilegedTaskDataEnd := 0x2040C000
        taskPrivateDataStart := 0x2040C000, taskPrivateDataEnd := 0x2040D000 } }

theorem Image.mapped_linked : Image.mapped.Linked where
  idle_aligned := by decide
  idle_end := by decide
  service_aligned := by decide
  service_end := by decide
  private_pos := by decide
  sections := ⟨by decide, by decide, by decide, by decide⟩

/-- Two unprivileged tasks with a private region of 64 bytes each. -/
def JrtKernelConfig.mapped : JrtKernelConfig where
  tasks := some fun i =>
    { entry := 0x00400000
      argument := 0
      stackBuffer := 0x20400020 + 0x1000 * UInt32.ofNat i
      stackWords := 18
      stackGuard := 0x20400000 + 0x1000 * UInt32.ofNat i
      priority := 2
      name := "task"
      flags := jrtTaskFlagUnprivileged
      privateDataBase := 0x2040C000 + 64 * UInt32.ofNat i
      privateDataSize := 64
      benchmarkPeriodTicks := 0 }
  taskCount := 2

theorem jrtKernelInit_accepts_iff_sample :
    ∃ status k', jrtKernelInit .mapped (.zero 0) (some .mapped) = .ok (status, k')
      ∧ (status = .ok ↔ ValidConfig .mapped (some .mapped)) ∧ (status ≠ .ok → k' = .zero 0) :=
  jrtKernelInit_accepts_iff Image.mapped_linked (.zero 0) (some .mapped)

end JustRT
