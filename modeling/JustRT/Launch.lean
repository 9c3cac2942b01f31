import JustRT.Context
import Mathlib.Data.List.GetD

/-!
# The first launch of a task

`JRT_KernelInit` fills each stack and builds an initial frame on it, the
application tasks' first, then the timer service's and the idle task's. A
launch reads the frame in another place, in `arch_restore_task_context` and
in the exception return. What it reads is what was built, unless a stack
that is prepared later lies over it: the validation compares the
application stacks with each other, and not with the two the kernel owns.
-/

namespace JustRT

/-! ## A launch -/

/-- The frame an exception return pops from `psp`. -/
structure ExceptionFrame where
  r0 : UInt32
  r1 : UInt32
  r2 : UInt32
  r3 : UInt32
  r12 : UInt32
  lr : UInt32
  pc : UInt32
  xpsr : UInt32

def exceptionFrame (memory : Memory) (psp : Ptr) : ExceptionFrame :=
  { r0 := memory psp
    r1 := memory (psp + 4)
    r2 := memory (psp + 8)
    r3 := memory (psp + 12)
    r12 := memory (psp + 16)
    lr := memory (psp + 20)
    pc := memory (psp + 24)
    xpsr := memory (psp + 28) }

/-- The registers a launch of task `i` restores, and the frame its exception
return pops, start the task of setup `s`. -/
structure Launches (fpu : Bool) (k : Kernel) (i : Nat) (s : TaskSetup) (r r' : Registers)
    (f : ExceptionFrame) : Prop where
  restored : r' = archRestoreTaskContext fpu k.memory (k.tasks i).sp r
  frame : f = exceptionFrame k.memory r'.psp
  excReturn : r'.excReturn = 0xFFFFFFFD
  core : ∀ j, r'.core j = 0
  argument : f.r0 = s.argument
  entry : f.pc = s.entry &&& ~~~1
  thumb : f.xpsr &&& 0x01000000 ≠ 0
  aligned : 8 ∣ r'.psp.toNat
  inside : s.stackBottom.toNat ≤ r'.psp.toNat ∧ r'.psp.toNat + 32 ≤ s.stackTop.toNat

/-- From whatever registers, task `i` starts as its setup `s` says. -/
def Launchable (k : Kernel) (i : Nat) (s : TaskSetup) : Prop :=
  ∀ fpu r, ∃ r' f, Launches fpu k i s r r' f

namespace TaskSetup

def stackBytes (s : TaskSetup) : Set Nat := Set.Ico s.stackBottom.toNat s.stackTop.toNat

/-- The initial frame: the last 17 words of the stack. -/
def frameBytes (s : TaskSetup) : Set Nat := Set.Ico (s.stackTop.toNat - 68) s.stackTop.toNat

/-- A stack of `words` words, an even number, with room for the frame. -/
structure Sound (s : TaskSetup) (words : Nat) : Prop where
  top : s.stackTop.toNat = s.stackBottom.toNat + 4 * words
  room : 17 ≤ words
  even : 2 ∣ words
  aligned : 8 ∣ s.stackBottom.toNat

/-- The stack of `later` is not over the frame of `s`, or it has the same
frame in the same place. -/
def SparesFrame (later s : TaskSetup) : Prop :=
  Disjoint s.frameBytes later.stackBytes
    ∨ (s.stackTop = later.stackTop ∧ s.entry &&& ~~~1 = later.entry &&& ~~~1
      ∧ s.argument = later.argument)

end TaskSetup

/-! ## Preparing one stack -/

section Prepare

variable {img : Image} {m : Memory} {top bottom a : Ptr} {s : TaskSetup} {words : Nat}

/-- The words of an initial frame, in the order in which they are pushed. -/
def initialWords (img : Image) (entry argument : Ptr) : List UInt32 :=
  [ 0x01000000, entry &&& ~~~1, img.taskExitTrap ||| 1, 0, 0, 0, 0, argument,
    0, 0, 0, 0, 0, 0, 0, 0, archInitialExcReturn ]

/-- The word `j` of an initial frame, from the stack pointer upwards. -/
def initialWord (img : Image) (entry argument : Ptr) (j : Nat) : UInt32 :=
  (initialWords img entry argument).getD (16 - j) 0

/-- The word at the address `x` of a prepared stack. -/
def preparedWord (img : Image) (s : TaskSetup) (x : Nat) : UInt32 :=
  if x + 68 < s.stackTop.toNat then jrtTaskStackFill
  else initialWord img s.entry s.argument ((x + 68 - s.stackTop.toNat) / 4)

/-- The memory behind the preparation of a task. -/
def preparedMemory (img : Image) (m : Memory) (s : TaskSetup) : Memory :=
  (archBuildInitialStack img (fillStack m s.stackBottom s.stackTop) s.stackTop s.entry
    s.argument).2

theorem fillStackLoop_spec {fuel : Nat} {word : Ptr} (h : word.toNat + 4 * fuel = top.toNat) :
    (∀ a : Ptr, ∀ q < fuel, a.toNat = word.toNat + 4 * q →
        fillStackLoop top fuel word m a = jrtTaskStackFill)
      ∧ ∀ a : Ptr, a.toNat ∉ Set.Ico word.toNat top.toNat → fillStackLoop top fuel word m a = m a := by
  induction fuel generalizing word m with
  | zero => exact ⟨fun a q hq => absurd hq (Nat.not_lt_zero q), fun a _ => rfl⟩
  | succ fuel ih =>
      have htop := top.toNat_lt
      have hlt : word < top := UInt32.lt_iff_toNat_lt.mpr (by omega)
      have hnext : (word + 4).toNat = word.toNat + 4 := by
        rw [UInt32.toNat_add]
        exact Nat.mod_eq_of_lt (show word.toNat + 4 < 2 ^ 32 by omega)
      have hbehind : (word + 4).toNat + 4 * fuel = top.toNat := by omega
      obtain ⟨hfilled, hkept⟩ := ih (m := fun a => if a = word then jrtTaskStackFill else m a) hbehind
      have hloop : fillStackLoop top (fuel + 1) word m
          = fillStackLoop top fuel (word + 4)
              (fun a => if a = word then jrtTaskStackFill else m a) := if_pos hlt
      rw [hloop]
      constructor
      · intro a q hq ha
        cases q with
        | zero =>
            obtain rfl : a = word := UInt32.toNat_inj.mp ha
            rw [hkept a fun hmem => by have := hmem.1; omega, if_pos rfl]
        | succ q => exact hfilled a q (by omega) (by omega)
      · intro a ha
        have hne : a ≠ word := by
          rintro rfl
          exact ha ⟨Nat.le_refl _, by omega⟩
        rw [hkept a fun hmem => ha ⟨by have := hmem.1; omega, hmem.2⟩, if_neg hne]

/-- Pushed words lie below the top, the first one highest. -/
theorem foldl_pushWord_spec (l : List UInt32) (hroom : 4 * l.length ≤ top.toNat) :
    (l.foldl pushWord (top, m)).1.toNat = top.toNat - 4 * l.length
      ∧ (∀ a : Ptr, ∀ j < l.length, a.toNat + 4 * (j + 1) = top.toNat →
          (l.foldl pushWord (top, m)).2 a = l.getD j 0)
      ∧ ∀ a : Ptr, a.toNat ∉ Set.Ico (top.toNat - 4 * l.length) top.toNat →
          (l.foldl pushWord (top, m)).2 a = m a := by
  induction l using List.reverseRecOn with
  | nil => exact ⟨rfl, fun a j hj => absurd hj (Nat.not_lt_zero j), fun a _ => rfl⟩
  | append_singleton l v ih =>
      rw [List.length_append, List.length_singleton] at hroom ⊢
      obtain ⟨hsp, hpushed, hkept⟩ := ih (by omega)
      rw [List.foldl_append, List.foldl_cons, List.foldl_nil]
      generalize l.foldl pushWord (top, m) = built at hsp hpushed hkept ⊢
      have hnext : (built.1 - 4).toNat = built.1.toNat - 4 :=
        UInt32.toNat_sub_of_le _ _ (UInt32.le_iff_toNat_le.mpr (show 4 ≤ built.1.toNat by omega))
      have hword : ∀ a : Ptr, (pushWord built v).2 a = if a = built.1 - 4 then v else built.2 a :=
        fun a => rfl
      refine ⟨?_, fun a j hj ha => ?_, fun a ha => ?_⟩
      · change (built.1 - 4).toNat = _
        omega
      · rw [hword]
        by_cases hlast : j = l.length
        · subst hlast
          rw [if_pos (UInt32.toNat_inj.mp (by omega))]
          simp
        · have hne : a ≠ built.1 - 4 := fun heq => by
            rw [heq] at ha
            omega
          rw [if_neg hne, hpushed a j (by omega) ha, List.getD_append _ _ _ _ (by omega)]
      · have hne : a ≠ built.1 - 4 := by
          rintro rfl
          exact ha ⟨by omega, by omega⟩
        rw [hword, if_neg hne, hkept a fun hmem => ha ⟨by have := hmem.1; omega, hmem.2⟩]

theorem fillStack_eq (hs : s.Sound words) :
    fillStack m s.stackBottom s.stackTop = fillStackLoop s.stackTop words s.stackBottom m := by
  have htop := hs.top
  have hlt := s.stackTop.toNat_lt
  have hfuel : ((s.stackTop - s.stackBottom) / 4).toNat = words := by
    rw [UInt32.toNat_div, UInt32.toNat_sub_of_le _ _ (UInt32.le_iff_toNat_le.mpr (by omega))]
    change (s.stackTop.toNat - s.stackBottom.toNat) / 4 = words
    omega
  rw [fillStack, hfuel]

theorem preparedMemory_word (hs : s.Sound words) (hmem : a.toNat ∈ s.stackBytes)
    (hword : 4 ∣ a.toNat) : preparedMemory img m s a = preparedWord img s a.toNat := by
  have hroom := hs.room
  have htop := hs.top
  have haligned := hs.aligned
  obtain ⟨hle, hlt⟩ := hmem
  obtain ⟨-, hpushed, hkept⟩ := foldl_pushWord_spec (m := fillStack m s.stackBottom s.stackTop)
    (initialWords img s.entry s.argument) (show 4 * 17 ≤ s.stackTop.toNat by omega)
  change ((initialWords img s.entry s.argument).foldl pushWord
    (s.stackTop, fillStack m s.stackBottom s.stackTop)).2 a = _
  rw [preparedWord]
  by_cases hframe : a.toNat + 68 < s.stackTop.toNat
  · obtain ⟨hfilled, -⟩ := fillStackLoop_spec (m := m) (htop.symm)
    rw [if_pos hframe, hkept a, fillStack_eq hs,
      hfilled a ((a.toNat - s.stackBottom.toNat) / 4) (by omega) (by omega)]
    rintro ⟨habove, -⟩
    change s.stackTop.toNat - 4 * 17 ≤ a.toNat at habove
    omega
  · rw [if_neg hframe, hpushed a ((s.stackTop.toNat - a.toNat) / 4 - 1)
      (show (s.stackTop.toNat - a.toNat) / 4 - 1 < 17 by omega) (by omega), initialWord]
    congr 1
    omega

theorem preparedMemory_of_not_mem (hs : s.Sound words) (ha : a.toNat ∉ s.stackBytes) :
    preparedMemory img m s a = m a := by
  have hroom := hs.room
  have htop := hs.top
  obtain ⟨-, -, hkept⟩ := foldl_pushWord_spec (m := fillStack m s.stackBottom s.stackTop)
    (initialWords img s.entry s.argument) (show 4 * 17 ≤ s.stackTop.toNat by omega)
  obtain ⟨-, hfill⟩ := fillStackLoop_spec (m := m) (htop.symm)
  change ((initialWords img s.entry s.argument).foldl pushWord
    (s.stackTop, fillStack m s.stackBottom s.stackTop)).2 a = m a
  rw [hkept a, fillStack_eq hs, hfill a ha]
  rintro ⟨hle, hlt⟩
  change s.stackTop.toNat - 4 * 17 ≤ a.toNat at hle
  exact ha ⟨by omega, hlt⟩

end Prepare

/-! ## What a launch reads -/

section Reads

variable {img : Image} {k : Kernel} {i : Nat} {s : TaskSetup} {words : Nat}

/-- The word `j` of the frame of a task that has not run. -/
def frameWord (m : Memory) (s : TaskSetup) (j : Nat) : UInt32 :=
  m (s.stackTop - 68 + 4 * UInt32.ofNat j)

theorem frameWord_address (hs : s.Sound words) {j : Nat} (hj : j < 17) :
    (s.stackTop - 68 + 4 * UInt32.ofNat j).toNat = s.stackTop.toNat - 68 + 4 * j := by
  have hroom := hs.room
  have htop := hs.top
  have hlt := s.stackTop.toNat_lt
  have hsp : (s.stackTop - 68).toNat = s.stackTop.toNat - 68 :=
    UInt32.toNat_sub_of_le _ _ (UInt32.le_iff_toNat_le.mpr (show 68 ≤ s.stackTop.toNat by omega))
  have hend : (s.stackTop - 68).toNat + 4 * 17 ≤ 2 ^ 32 := by omega
  have hword := Words.toNat_word hend ⟨j, hj⟩
  rw [← hsp]
  exact hword

/-- The words of a frame that a launch depends on. -/
structure FrameStarts (m : Memory) (s : TaskSetup) : Prop where
  excReturn : frameWord m s 0 = 0xFFFFFFFD
  core : ∀ j, 1 ≤ j → j ≤ 8 → frameWord m s j = 0
  argument : frameWord m s 9 = s.argument
  entry : frameWord m s 15 = s.entry &&& ~~~1
  thumb : frameWord m s 16 &&& 0x01000000 ≠ 0

/-- A restore without floating-point registers, in words of the frame. -/
theorem archRestoreTaskContext_basic (fpu : Bool) (m : Memory) (r : Registers)
    (hbasic : extended fpu (frameWord m s 0) = false) :
    archRestoreTaskContext fpu m (s.stackTop - 68) r
      = { r with
          core := fun j => frameWord m s (j + 1)
          psp := s.stackTop - 32
          excReturn := frameWord m s 0 } := by
  have hfirst : m (s.stackTop - 68) = frameWord m s 0 :=
    congrArg m (UInt32.add_zero (s.stackTop - 68)).symm
  have hcore : Words.load 8 m (s.stackTop - 68 + 4) = fun j : Fin 8 => frameWord m s (j + 1) := by
    funext j
    have hoffset : (4 : UInt32) + 4 * UInt32.ofNat j = 4 * UInt32.ofNat (j + 1) := by
      rw [UInt32.ofNat_add, UInt32.mul_add, UInt32.add_comm]
      rfl
    change m (s.stackTop - 68 + 4 + 4 * UInt32.ofNat j) = _
    rw [UInt32.add_assoc, hoffset]
    rfl
  have hpsp : s.stackTop - 68 + 4 + 4 * UInt32.ofNat 8 = s.stackTop - 32 := by grind
  simp only [archRestoreTaskContext, hfirst, hbasic, ldmia, hcore, hpsp, Bool.false_eq_true,
    if_false]

theorem exceptionFrame_words (m : Memory) (s : TaskSetup) :
    (exceptionFrame m (s.stackTop - 32)).r0 = frameWord m s 9
      ∧ (exceptionFrame m (s.stackTop - 32)).pc = frameWord m s 15
      ∧ (exceptionFrame m (s.stackTop - 32)).xpsr = frameWord m s 16 := by
  have hr0 : s.stackTop - 32 = s.stackTop - 68 + 4 * UInt32.ofNat 9 := by grind
  have hpc : s.stackTop - 32 + 24 = s.stackTop - 68 + 4 * UInt32.ofNat 15 := by grind
  have hxpsr : s.stackTop - 32 + 28 = s.stackTop - 68 + 4 * UInt32.ofNat 16 := by grind
  exact ⟨congrArg m hr0, congrArg m hpc, congrArg m hxpsr⟩

/-- A task is launchable if its frame is, read as 17 words. -/
theorem launchable_iff (hs : s.Sound words) (hsp : (k.tasks i).sp = s.stackTop - 68) :
    Launchable k i s ↔ FrameStarts k.memory s := by
  have hroom := hs.room
  have htop := hs.top
  obtain ⟨hr0, hpc, hxpsr⟩ := exceptionFrame_words k.memory s
  constructor
  · intro h
    obtain ⟨r', f, hlaunch⟩ := h false ⟨fun _ => 0, fun _ => 0, 0, 0, 0⟩
    have hrestored := hlaunch.restored
    rw [hsp, archRestoreTaskContext_basic false k.memory _ rfl] at hrestored
    have hframe := hlaunch.frame
    rw [hrestored] at hframe
    refine ⟨?_, fun j hpos hle => ?_, ?_, ?_, ?_⟩
    · rw [← hlaunch.excReturn, hrestored]
    · have hcore := hlaunch.core ⟨j - 1, by omega⟩
      rw [hrestored] at hcore
      change frameWord k.memory s (j - 1 + 1) = 0 at hcore
      rwa [Nat.sub_add_cancel hpos] at hcore
    · rw [← hr0, ← hframe]
      exact hlaunch.argument
    · rw [← hpc, ← hframe]
      exact hlaunch.entry
    · rw [← hxpsr, ← hframe]
      exact hlaunch.thumb
  · intro h fpu r
    have hbasic : extended fpu (frameWord k.memory s 0) = false := by
      rw [h.excReturn]
      cases fpu <;> rfl
    have hrestored := archRestoreTaskContext_basic fpu k.memory r hbasic
    have hpsp : (s.stackTop - 32).toNat = s.stackTop.toNat - 32 :=
      UInt32.toNat_sub_of_le _ _ (UInt32.le_iff_toNat_le.mpr (show 32 ≤ s.stackTop.toNat by omega))
    refine ⟨_, _, ⟨rfl, rfl, ?_, ?_, ?_, ?_, ?_, ?_, ?_⟩⟩ <;> rw [hsp, hrestored]
    · exact h.excReturn
    · exact fun j => h.core (j + 1) (Nat.le_add_left _ _) j.isLt
    · exact hr0.trans h.argument
    · exact hpc.trans h.entry
    · rw [hxpsr]
      exact h.thumb
    · change 8 ∣ (s.stackTop - 32).toNat
      have haligned := hs.aligned
      have heven := hs.even
      omega
    · change _ ≤ (s.stackTop - 32).toNat ∧ (s.stackTop - 32).toNat + 32 ≤ _
      omega

/-! ## Stacks over a frame -/

variable {m : Memory} {later : TaskSetup} {laterWords : Nat}

/-- A word of a frame that a stack prepared later lies over. -/
theorem frameWord_over (hs : s.Sound words) (hlater : later.Sound laterWords) {j : Nat}
    (hj : j < 17) (hover : s.stackTop.toNat - 68 + 4 * j ∈ later.stackBytes) :
    frameWord (preparedMemory img m later) s j
      = preparedWord img later (s.stackTop.toNat - 68 + 4 * j) := by
  have hroom := hs.room
  have htop := hs.top
  have haligned := hs.aligned
  have haddress := frameWord_address hs hj
  rw [← haddress] at hover ⊢
  refine preparedMemory_word hlater hover ?_
  rw [haddress]
  omega

theorem frameWord_clear (hs : s.Sound words) (hlater : later.Sound laterWords) {j : Nat}
    (hj : j < 17) (hclear : s.stackTop.toNat - 68 + 4 * j ∉ later.stackBytes) :
    frameWord (preparedMemory img m later) s j = frameWord m s j := by
  rw [← frameWord_address hs hj] at hclear
  exact preparedMemory_of_not_mem hlater hclear

theorem frameWord_self (hs : s.Sound words) {j : Nat} (hj : j < 17) :
    frameWord (preparedMemory img m s) s j = initialWord img s.entry s.argument j := by
  have hroom := hs.room
  have htop := hs.top
  rw [frameWord_over hs hs hj ⟨by omega, by omega⟩, preparedWord, if_neg (by omega)]
  congr 1
  omega

theorem initialWord_excReturn (entry argument : Ptr) :
    initialWord img entry argument 0 = 0xFFFFFFFD := rfl

theorem initialWord_xpsr (entry argument : Ptr) :
    initialWord img entry argument 16 = 0x01000000 := rfl

theorem initialWord_core (entry argument : Ptr) {j : Nat} (hpos : 1 ≤ j) (hle : j ≤ 8) :
    initialWord img entry argument j = 0 := by
  have hcases : j = 1 ∨ j = 2 ∨ j = 3 ∨ j = 4 ∨ j = 5 ∨ j = 6 ∨ j = 7 ∨ j = 8 := by omega
  rcases hcases with rfl | rfl | rfl | rfl | rfl | rfl | rfl | rfl <;> rfl

/-- A frame starts its task once it is built ... -/
theorem FrameStarts.built (img : Image) (m : Memory) (hs : s.Sound words) :
    FrameStarts (preparedMemory img m s) s := by
  refine ⟨?_, fun j hpos hle => ?_, ?_, ?_, ?_⟩
  · exact frameWord_self hs (by decide)
  · rw [frameWord_self hs (by omega)]
    exact initialWord_core _ _ hpos hle
  · exact frameWord_self hs (by decide)
  · exact frameWord_self hs (by decide)
  · rw [frameWord_self hs (by decide)]
    rw [initialWord_xpsr]
    decide

/-- ... and still does behind a preparation that spares it. -/
theorem FrameStarts.spared (h : FrameStarts m s) (hs : s.Sound words)
    (hlater : later.Sound laterWords) (hspares : later.SparesFrame s) :
    FrameStarts (preparedMemory img m later) s := by
  have hroom := hs.room
  have htop := hs.top
  rcases hspares with hdisjoint | ⟨hsame, hentry, hargument⟩
  · have hkept : ∀ j < 17, frameWord (preparedMemory img m later) s j = frameWord m s j :=
      fun j hj => frameWord_clear hs hlater hj
        (Set.disjoint_left.mp hdisjoint ⟨by omega, by omega⟩)
    refine ⟨?_, fun j hpos hle => ?_, ?_, ?_, ?_⟩
    · rw [hkept 0 (by decide)]
      exact h.excReturn
    · rw [hkept j (by omega)]
      exact h.core j hpos hle
    · rw [hkept 9 (by decide)]
      exact h.argument
    · rw [hkept 15 (by decide)]
      exact h.entry
    · rw [hkept 16 (by decide)]
      exact h.thumb
  · have hframe : frameWord (preparedMemory img m later) s
        = frameWord (preparedMemory img m later) later := by
      funext j
      rw [frameWord, hsame]
      rfl
    have hbuilt := FrameStarts.built img m hlater
    refine ⟨?_, ?_, ?_, ?_, ?_⟩ <;> rw [hframe]
    · exact hbuilt.excReturn
    · exact hbuilt.core
    · rw [hargument]
      exact hbuilt.argument
    · rw [hentry]
      exact hbuilt.entry
    · exact hbuilt.thumb

/-- A frame that starts its task although a later stack is over it has been
built again by that stack: any other overlap puts a word of the later
stack, of its fill or of its frame, where it does not belong. -/
theorem FrameStarts.spares (img : Image) (h : FrameStarts m s) (hs : s.Sound words)
    (hlater : later.Sound laterWords)
    (hover : ∀ j < 17, s.stackTop.toNat - 68 + 4 * j ∈ later.stackBytes →
      frameWord m s j = preparedWord img later (s.stackTop.toNat - 68 + 4 * j)) :
    later.SparesFrame s := by
  have hroom := hs.room
  have htop := hs.top
  have haligned := hs.aligned
  have heven := hs.even
  have hroom' := hlater.room
  have htop' := hlater.top
  have haligned' := hlater.aligned
  have heven' := hlater.even
  by_cases hdisjoint : Disjoint s.frameBytes later.stackBytes
  · exact Or.inl hdisjoint
  obtain ⟨x, ⟨hx₁, hx₂⟩, hx₃, hx₄⟩ := Set.not_disjoint_iff.mp hdisjoint
  -- A word of the later frame, seen from this one.
  have hword : ∀ j n, j < 17 → n < 17 →
      s.stackTop.toNat + 4 * j = later.stackTop.toNat + 4 * n →
      frameWord m s j = initialWord img later.entry later.argument n := by
    intro j n hj hn heq
    rw [hover j hj ⟨by omega, by omega⟩, preparedWord, if_neg (by omega)]
    congr 1
    omega
  rcases Nat.lt_trichotomy later.stackTop.toNat s.stackTop.toNat with hlt | heq | hgt
  · -- The later stack ends inside the frame.
    exfalso
    obtain ⟨p, hp, hend⟩ : ∃ p ≤ 7, later.stackTop.toNat + 64 = s.stackTop.toNat + 8 * p :=
      ⟨(later.stackTop.toNat + 64 - s.stackTop.toNat) / 8, by omega, by omega⟩
    by_cases hlow : p ≤ 4
    · have hxpsr := hword (2 * p) 16 (by omega) (by decide) (by omega)
      by_cases hzero : p = 0
      · subst hzero
        have hexc := h.excReturn
        rw [hxpsr, initialWord_xpsr] at hexc
        exact absurd hexc (by decide)
      · have hcore := h.core (2 * p) (by omega) (by omega)
        rw [hxpsr, initialWord_xpsr] at hcore
        exact absurd hcore (by decide)
    · have hexc := h.excReturn
      rw [hword 0 (16 - 2 * p) (by decide) (by omega) (by omega),
        initialWord_core _ _ (by omega) (by omega)] at hexc
      exact absurd hexc (by decide)
  · -- It ends where the frame does.
    refine Or.inr ⟨UInt32.toNat_inj.mp heq.symm, ?_, ?_⟩
    · exact h.entry.symm.trans (hword 15 15 (by decide) (by decide) (by omega))
    · exact h.argument.symm.trans (hword 9 9 (by decide) (by decide) (by omega))
  · -- It ends above the frame.
    exfalso
    obtain ⟨p, hp, hend⟩ : ∃ p, 1 ≤ p ∧ later.stackTop.toNat = s.stackTop.toNat + 8 * p :=
      ⟨(later.stackTop.toNat - s.stackTop.toNat) / 8, by omega, by omega⟩
    by_cases hfar : 8 ≤ p
    · have hentry := h.entry
      rw [hover 15 (by decide) ⟨by omega, by omega⟩, preparedWord, if_pos (by omega)] at hentry
      -- The fill is odd.
      have hodd : (s.entry &&& ~~~1) &&& 1 = 0 := by
        rw [UInt32.and_assoc]
        exact UInt32.and_zero
      rw [← hentry] at hodd
      exact absurd hodd (by decide)
    · have hexc := hword (2 * p) 0 (by omega) (by decide) (by omega)
      by_cases hlow : p ≤ 4
      · have hcore := h.core (2 * p) (by omega) (by omega)
        rw [hexc, initialWord_excReturn] at hcore
        exact absurd hcore (by decide)
      · have hthumb := h.thumb
        rw [hword 16 (16 - 2 * p) (by decide) (by omega) (by omega),
          initialWord_core _ _ (by omega) (by omega)] at hthumb
        exact hthumb rfl

end Reads

/-! ## All tasks -/

/-- What the build settles about the stacks of the two internal tasks: the
preprocessor's checks of their sizes, and that two objects do not overlap. -/
structure Image.StacksBuilt (img : Image) : Prop where
  minimum : 17 ≤ img.jrtMinimumTaskStackWords.toNat
  idle_words : img.jrtMinimumTaskStackWords ≤ img.jrtIdleStackWords
  idle_even : 2 ∣ img.jrtIdleStackWords.toNat
  service_words : img.jrtMinimumTaskStackWords ≤ img.jrtTimerServiceStackWords
  service_even : 2 ∣ img.jrtTimerServiceStackWords.toNat
  apart : Disjoint img.timerServiceRange img.idleRange

section Table

variable {img : Image} {k k' : Kernel} {tasks : Nat → JrtTaskDefinition} {taskCount : Nat}
  {m : Memory} {s : TaskSetup} {words : Nat}

theorem ValidStack.sound {d : JrtTaskDefinition} (hbuilt : img.StacksBuilt)
    (h : ValidStack img d) : d.setup.Sound d.stackWords.toNat where
  top := h.toNat_stackEnd
  room := hbuilt.minimum.trans (UInt32.le_iff_toNat_le.mp h.words_le)
  even := h.words_even
  aligned := h.buffer_aligned

theorem ValidStack.stackBytes_subset {d : JrtTaskDefinition} (h : ValidStack img d) :
    d.setup.stackBytes ⊆ d.stackRange := by
  rintro x ⟨hle, hlt⟩
  have hadjacent := h.adjacent
  have htop := h.toNat_stackEnd
  change d.stackBuffer.toNat ≤ x at hle
  change x < d.stackEnd.toNat at hlt
  exact ⟨by omega, by omega⟩

/-- Preparing the task of setup `later` writes on the stack of `s`: there is a
content of memory that it does not leave as it is. What is written need not
differ from what `s` has there, so this is about addresses and not about contents. -/
def TaskSetup.Overwrites (img : Image) (later s : TaskSetup) : Prop :=
  ∃ (m : Memory) (a : Ptr), a.toNat ∈ s.stackBytes ∧ preparedMemory img m later a ≠ m a

/-- A preparation writes every word of its stack, so it spares exactly the
stacks that have no byte in common with it. -/
theorem not_overwrites_iff {later : TaskSetup} {laterWords : Nat} (hs : s.Sound words)
    (hlater : later.Sound laterWords) :
    ¬later.Overwrites img s ↔ Disjoint s.stackBytes later.stackBytes := by
  have htop := hs.top
  have haligned := hs.aligned
  have htop' := hlater.top
  have haligned' := hlater.aligned
  constructor
  · intro hspares
    refine Set.disjoint_left.mpr fun x hx hx' => hspares ?_
    obtain ⟨hle, hlt⟩ := hx
    obtain ⟨hle', hlt'⟩ := hx'
    -- The stacks are of words, so they share the word around a shared byte.
    have hstop := s.stackTop.toNat_lt
    obtain ⟨a, ha⟩ : ∃ a : Ptr, a.toNat = 4 * (x / 4) :=
      ⟨.ofNat (4 * (x / 4)), UInt32.toNat_ofNat_of_lt' (show 4 * (x / 4) < 2 ^ 32 by omega)⟩
    have hshared : a.toNat ∈ later.stackBytes := ⟨by omega, by omega⟩
    refine ⟨fun _ => preparedWord img later a.toNat + 1, a, ⟨by omega, by omega⟩, ?_⟩
    rw [preparedMemory_word hlater hshared ⟨x / 4, ha⟩]
    simp
  · rintro hdisjoint ⟨m, a, ha, hne⟩
    exact hne (preparedMemory_of_not_mem hlater (Set.disjoint_left.mp hdisjoint ha))

/-- A stack that lies behind a guard at the start of its storage. -/
theorem sound_of_storage {storage stackWords : UInt32} (halign : 32 ∣ storage.toNat)
    (hend : storage.toNat + 32 + 4 * stackWords.toNat < 2 ^ 32) (hroom : 17 ≤ stackWords.toNat)
    (heven : 2 ∣ stackWords.toNat) {s : TaskSetup} (hbottom : s.stackBottom = storage + 32)
    (htop : s.stackTop = storage + 32 + stackWords * 4) :
    s.Sound stackWords.toNat ∧ s.stackBottom.toNat = storage.toNat + 32 := by
  have hstart : (storage + 32).toNat = storage.toNat + 32 := by
    rw [UInt32.toNat_add]
    exact Nat.mod_eq_of_lt (show storage.toNat + 32 < 2 ^ 32 by omega)
  rw [← hbottom] at hstart
  refine ⟨⟨?_, hroom, heven, by omega⟩, hstart⟩
  rw [htop, hbottom, toNat_storageEnd hend, ← hbottom, hstart]

theorem Image.service_sound (himg : img.Linked) (hbuilt : img.StacksBuilt) :
    img.timerServiceSetup.Sound img.jrtTimerServiceStackWords.toNat
      ∧ img.timerServiceSetup.stackBytes ⊆ img.timerServiceRange := by
  obtain ⟨hsound, hbottom⟩ := sound_of_storage himg.service_aligned himg.service_end
    (hbuilt.minimum.trans (UInt32.le_iff_toNat_le.mp hbuilt.service_words)) hbuilt.service_even
    (s := img.timerServiceSetup) rfl rfl
  refine ⟨hsound, fun x hx => ?_⟩
  have htop := hsound.top
  exact ⟨by have := hx.1; omega, by have := hx.2; omega⟩

theorem Image.idle_sound (himg : img.Linked) (hbuilt : img.StacksBuilt) :
    img.idleSetup.Sound img.jrtIdleStackWords.toNat
      ∧ img.idleSetup.stackBytes ⊆ img.idleRange := by
  obtain ⟨hsound, hbottom⟩ := sound_of_storage himg.idle_aligned himg.idle_end
    (hbuilt.minimum.trans (UInt32.le_iff_toNat_le.mp hbuilt.idle_words)) hbuilt.idle_even
    (s := img.idleSetup) rfl rfl
  refine ⟨hsound, fun x hx => ?_⟩
  have htop := hsound.top
  exact ⟨by have := hx.1; omega, by have := hx.2; omega⟩

theorem TaskSetup.Sound.frameBytes_subset (hs : s.Sound words) : s.frameBytes ⊆ s.stackBytes :=
  fun x hx => ⟨by have := hx.1; have := hs.top; have := hs.room; omega, hx.2⟩

/-- The memory behind the first loop. -/
def applicationMemory (img : Image) (m : Memory) (tasks : Nat → JrtTaskDefinition)
    (l : List Nat) : Memory :=
  l.foldl (fun m i => preparedMemory img m (tasks i).setup) m

theorem prepareRecord_memory (index : Nat) (bottom top entry argument : Ptr) (priority : Nat)
    (name : String) (flags : UInt32) (base : Ptr) (size : UInt32) :
    (prepareRecord img k index bottom top entry argument priority name flags base size).memory
      = (archBuildInitialStack img (fillStack k.memory bottom top) top entry argument).2 := by
  simp only [prepareRecord]
  generalize archBuildInitialStack img (fillStack k.memory bottom top) top entry argument = built
  obtain ⟨sp, memory⟩ := built
  rfl

theorem prepareTask_memory (i : Nat) (d : JrtTaskDefinition) :
    (prepareTask img k i d).memory = preparedMemory img k.memory d.setup := by
  change (prepareRecord img k i d.stackBuffer d.stackEnd d.entry d.argument d.priority d.name
    d.flags d.privateDataBase d.privateDataSize).memory = _
  rw [prepareRecord_memory]
  rfl

theorem prepareTimerServiceTask_memory (i : Nat) :
    (prepareTimerServiceTask img k i).memory = preparedMemory img k.memory img.timerServiceSetup := by
  change (prepareRecord img { k with timerServiceTaskIndex := i } i
    (img.timerServiceTaskStorage + 32)
    (img.timerServiceTaskStorage + 32 + img.jrtTimerServiceStackWords * 4) img.timerServiceBody 0
    img.jrtTimerServicePriority "timer-service" 0 0 0).memory = _
  rw [prepareRecord_memory]
  rfl

theorem prepareIdleTask_memory :
    (prepareIdleTask img k).memory = preparedMemory img k.memory img.idleSetup := by
  change (prepareRecord img k (k.taskCount - 1) (img.idleTaskStorage + 32)
    (img.idleTaskStorage + 32 + img.jrtIdleStackWords * 4) img.idleBody 0 0 "idle" 0 0 0).memory = _
  rw [prepareRecord_memory]
  rfl

theorem foldl_prepareTask_memory (l : List Nat) :
    (l.foldl (fun k index => prepareTask img k index (tasks index)) k).memory
      = applicationMemory img k.memory tasks l :=
  (List.foldl_hom Kernel.memory fun _ i => (prepareTask_memory i (tasks i)).symm).symm

theorem kernelSetUp_memory (h : kernelSetUp img k tasks taskCount = .ok k') :
    k'.memory = preparedMemory img
      (preparedMemory img (applicationMemory img k.memory tasks (List.range taskCount))
        img.timerServiceSetup) img.idleSetup := by
  have hprepared : k'.memory = (kernelPrepared img k tasks taskCount).memory := by
    simp only [kernelSetUp, exec_bind_eq_ok] at h
    obtain ⟨mpu, -, h⟩ := h
    obtain rfl := Except.ok.inj h
    rfl
  rw [hprepared]
  change (prepareIdleTask img (prepareTimerServiceTask img
    ((List.range taskCount).foldl (fun k index => prepareTask img k index (tasks index)) _)
    taskCount)).memory = _
  rw [prepareIdleTask_memory, prepareTimerServiceTask_memory, foldl_prepareTask_memory]

/-- Behind the first loop every application frame starts its task. -/
theorem applicationMemory_starts (hbuilt : img.StacksBuilt) (htable : ValidTable img tasks taskCount)
    {l : List Nat} (hl : ∀ j ∈ l, j < taskCount) {i : Nat} (hi : i < taskCount)
    (hstarts : i ∈ l ∨ FrameStarts m (tasks i).setup) :
    FrameStarts (applicationMemory img m tasks l) (tasks i).setup := by
  induction l generalizing m with
  | nil => exact hstarts.resolve_left List.not_mem_nil
  | cons j l ih =>
      have hj := hl j List.mem_cons_self
      have hsound := (htable.stack i hi).sound hbuilt
      refine ih (m := preparedMemory img m (tasks j).setup)
        (fun j hj => hl j (List.mem_cons_of_mem _ hj)) ?_
      by_cases hij : i = j
      · subst hij
        exact Or.inr (.built img m hsound)
      · refine hstarts.imp (fun hmem => (List.mem_cons.mp hmem).resolve_left hij) fun h => ?_
        refine h.spared hsound ((htable.stack j hj).sound hbuilt) (Or.inl ?_)
        exact Set.disjoint_of_subset
          (hsound.frameBytes_subset.trans (htable.stack i hi).stackBytes_subset)
          (htable.stack j hj).stackBytes_subset (htable.stack_disjoint i hi j hj hij)

/-- What an accepted table comes to: it is valid, and two tasks are added. -/
theorem accepted_table (himg : img.Linked)
    (hinit : jrtKernelInit img k (some ⟨some tasks, taskCount⟩) = .ok (.ok, k')) :
    ValidTable img tasks taskCount ∧ k'.taskCount = taskCount + 2 := by
  obtain ⟨tasks', htasks, -, -, hdefinitions, hregions, hsetUp⟩ := jrtKernelInit_cases hinit
  obtain rfl := Option.some.inj htasks
  refine ⟨(validTable_iff himg tasks taskCount).mp ⟨hdefinitions, hregions⟩, ?_⟩
  rw [(jrtKernelInit_booted hinit).taskCount_eq, (kernelSetUp_ledger hsetUp).1]

theorem Image.setups_service : img.setups tasks taskCount taskCount = img.timerServiceSetup := by
  rw [Image.setups, if_neg (Nat.lt_irrefl _), if_pos rfl]

theorem Image.setups_idle : img.setups tasks taskCount (taskCount + 1) = img.idleSetup := by
  rw [Image.setups, if_neg (by omega), if_neg (by omega)]

/-- Every stack the initialization prepares is one a task can start on. -/
theorem Image.setups_sound (himg : img.Linked) (hbuilt : img.StacksBuilt)
    (htable : ValidTable img tasks taskCount) (i : Nat) :
    ∃ words, (img.setups tasks taskCount i).Sound words := by
  rw [Image.setups]
  split
  · next hi => exact ⟨_, (htable.stack i hi).sound hbuilt⟩
  · split
    · exact ⟨_, (Image.service_sound himg hbuilt).1⟩
    · exact ⟨_, (Image.idle_sound himg hbuilt).1⟩

/-- If the application stacks keep off the internal ones, no two stacks meet. -/
theorem setups_disjoint (himg : img.Linked) (hbuilt : img.StacksBuilt)
    (htable : ValidTable img tasks taskCount)
    (happart : ∀ i < taskCount, Disjoint (tasks i).setup.stackBytes img.timerServiceSetup.stackBytes
      ∧ Disjoint (tasks i).setup.stackBytes img.idleSetup.stackBytes)
    {i j : Nat} (hj : j < taskCount + 2) (hij : i < j) :
    Disjoint (img.setups tasks taskCount i).stackBytes (img.setups tasks taskCount j).stackBytes := by
  by_cases hi₁ : i < taskCount
  · rw [show img.setups tasks taskCount i = (tasks i).setup from if_pos hi₁, Image.setups]
    split
    · next hj₁ =>
        exact (htable.stack_disjoint i hi₁ j hj₁ (Nat.ne_of_lt hij)).mono
          (htable.stack i hi₁).stackBytes_subset (htable.stack j hj₁).stackBytes_subset
    · split
      · exact (happart i hi₁).1
      · exact (happart i hi₁).2
  · obtain ⟨rfl, rfl⟩ : i = taskCount ∧ j = taskCount + 1 := by omega
    rw [Image.setups_service, Image.setups_idle]
    exact hbuilt.apart.mono (Image.service_sound himg hbuilt).2 (Image.idle_sound himg hbuilt).2

end Table

/-- Being launchable alone asks for less than an undisturbed stack: after a
`JRT_KernelInit` that returns OK every task is launchable exactly if neither
stack the kernel owns lies over an application task's initial frame, other
than with the same frame. -/
theorem launchable_iff_sparesFrame {img : Image} (himg : img.Linked) (hbuilt : img.StacksBuilt)
    {k k' : Kernel} {tasks : Nat → JrtTaskDefinition} {taskCount : Nat}
    (hinit : jrtKernelInit img k (some ⟨some tasks, taskCount⟩) = .ok (.ok, k')) :
    (∀ i < k'.taskCount, Launchable k' i (img.setups tasks taskCount i))
      ↔ ∀ i < taskCount, img.timerServiceSetup.SparesFrame (tasks i).setup
          ∧ img.idleSetup.SparesFrame (tasks i).setup := by
  obtain ⟨htable, hcount⟩ := accepted_table himg hinit
  obtain ⟨tasks', htasks, -, -, -, -, hsetUp⟩ := jrtKernelInit_cases hinit
  obtain rfl := Option.some.inj htasks
  obtain ⟨-, hledger⟩ := kernelSetUp_ledger hsetUp
  have hmemory := kernelSetUp_memory hsetUp
  have hsp : ∀ i < taskCount + 2, (k'.tasks i).sp = (img.setups tasks taskCount i).stackTop - 68 :=
    fun i hi => congrArg TaskLedger.sp (hledger i hi)
  obtain ⟨hservice, hserviceRange⟩ := Image.service_sound himg hbuilt
  obtain ⟨hidle, hidleRange⟩ := Image.idle_sound himg hbuilt
  have hapart := Set.disjoint_of_subset hserviceRange hidleRange hbuilt.apart
  have hsound : ∀ i < taskCount, (tasks i).setup.Sound (tasks i).stackWords.toNat :=
    fun i hi => (htable.stack i hi).sound hbuilt
  have happlication : ∀ i < taskCount, img.setups tasks taskCount i = (tasks i).setup :=
    fun i hi => if_pos hi
  rw [hcount]
  constructor
  · intro hlaunchable i hi
    have hlaunch := hlaunchable i (by omega)
    have hspi := hsp i (by omega)
    rw [happlication i hi] at hlaunch hspi
    have hstarts := (launchable_iff (hsound i hi) hspi).mp hlaunch
    rw [hmemory] at hstarts
    refine ⟨hstarts.spares img (hsound i hi) hservice fun j hj hover => ?_,
      hstarts.spares img (hsound i hi) hidle fun j hj hover => ?_⟩
    swap
    · exact frameWord_over (hsound i hi) hidle hj hover
    rw [frameWord_clear (hsound i hi) hidle hj (Set.disjoint_left.mp hapart hover)]
    exact frameWord_over (hsound i hi) hservice hj hover
  · intro hspares i hi
    have hspi := hsp i hi
    by_cases hi₁ : i < taskCount
    · rw [happlication i hi₁] at hspi ⊢
      rw [launchable_iff (hsound i hi₁) hspi, hmemory]
      obtain ⟨hsparesService, hsparesIdle⟩ := hspares i hi₁
      have hbuiltFrame := applicationMemory_starts (m := k.memory) hbuilt htable
        (fun j hj => List.mem_range.mp hj) hi₁ (Or.inl (List.mem_range.mpr hi₁))
      exact (hbuiltFrame.spared (hsound i hi₁) hservice hsparesService).spared (hsound i hi₁) hidle
        hsparesIdle
    · by_cases hi₂ : i = taskCount
      · subst hi₂
        rw [Image.setups_service] at hspi ⊢
        rw [launchable_iff hservice hspi, hmemory]
        exact (FrameStarts.built img _ hservice).spared hservice hidle
          (Or.inl (hapart.mono_left hservice.frameBytes_subset))
      · obtain rfl : i = taskCount + 1 := by omega
        rw [Image.setups_idle] at hspi ⊢
        rw [launchable_iff hidle hspi, hmemory]
        exact .built img _ hidle

/-- After a `JRT_KernelInit` that returns OK every task is launchable, and
preparing one task's stack has not written on another's, exactly if the stack
of no application task meets one of the two that the kernel owns. The
validation sees to all other pairs: it compares the application stacks with
each other, and the build keeps the two internal ones apart. -/
theorem kernelInit_launchable_iff {img : Image} (himg : img.Linked) (hbuilt : img.StacksBuilt)
    {k k' : Kernel} {tasks : Nat → JrtTaskDefinition} {taskCount : Nat}
    (hinit : jrtKernelInit img k (some ⟨some tasks, taskCount⟩) = .ok (.ok, k')) :
    (∀ i < k'.taskCount, Launchable k' i (img.setups tasks taskCount i)
        ∧ ∀ j < k'.taskCount, i ≠ j →
          ¬(img.setups tasks taskCount j).Overwrites img (img.setups tasks taskCount i))
      ↔ ∀ i < taskCount, Disjoint (tasks i).setup.stackBytes img.timerServiceSetup.stackBytes
          ∧ Disjoint (tasks i).setup.stackBytes img.idleSetup.stackBytes := by
  have hlaunchable := launchable_iff_sparesFrame himg hbuilt hinit
  obtain ⟨htable, hcount⟩ := accepted_table himg hinit
  have hsound : ∀ i < taskCount, (tasks i).setup.Sound (tasks i).stackWords.toNat :=
    fun i hi => (htable.stack i hi).sound hbuilt
  rw [hcount] at hlaunchable ⊢
  constructor
  · intro h i hi
    have happlication : img.setups tasks taskCount i = (tasks i).setup := if_pos hi
    obtain ⟨-, hspared⟩ := h i (by omega)
    have hnotService := hspared taskCount (by omega) (by omega)
    have hnotIdle := hspared (taskCount + 1) (by omega) (by omega)
    rw [happlication, Image.setups_service] at hnotService
    rw [happlication, Image.setups_idle] at hnotIdle
    exact ⟨(not_overwrites_iff (hsound i hi) (Image.service_sound himg hbuilt).1).mp hnotService,
      (not_overwrites_iff (hsound i hi) (Image.idle_sound himg hbuilt).1).mp hnotIdle⟩
  · intro happart
    have hframe : ∀ i < taskCount, img.timerServiceSetup.SparesFrame (tasks i).setup
        ∧ img.idleSetup.SparesFrame (tasks i).setup := fun i hi =>
      ⟨Or.inl ((happart i hi).1.mono_left (hsound i hi).frameBytes_subset),
        Or.inl ((happart i hi).2.mono_left (hsound i hi).frameBytes_subset)⟩
    refine fun i hi => ⟨hlaunchable.mpr hframe i hi, fun j hj hij => ?_⟩
    obtain ⟨_, hi'⟩ := Image.setups_sound himg hbuilt htable i
    obtain ⟨_, hj'⟩ := Image.setups_sound himg hbuilt htable j
    refine (not_overwrites_iff hi' hj').mpr ?_
    rcases Nat.lt_or_gt_of_ne hij with hlt | hgt
    · exact setups_disjoint himg hbuilt htable happart hj hlt
    · exact (setups_disjoint himg hbuilt htable happart hi hgt).symm

theorem Image.mapped_stacksBuilt : Image.mapped.StacksBuilt where
  minimum := by decide
  idle_words := by decide
  idle_even := by decide
  service_words := by decide
  service_even := by decide
  apart := Set.Ico_disjoint_Ico.mpr (by decide)

/-- A task on a stack of 18 words behind the guard at `stackGuard`. -/
def JrtTaskDefinition.stackAt (stackGuard : Ptr) : JrtTaskDefinition where
  entry := 0x00400000
  argument := 0
  stackBuffer := stackGuard + 32
  stackWords := 18
  stackGuard
  priority := 2
  name := "task"
  flags := 0
  privateDataBase := 0
  privateDataSize := 0
  benchmarkPeriodTicks := 0

/-- A table of that one task. -/
def JrtKernelConfig.stackAt (stackGuard : Ptr) : JrtKernelConfig where
  tasks := some fun _ => .stackAt stackGuard
  taskCount := 1

/-- A task on the storage of the idle task is accepted, and launched as the
idle task. -/
theorem launch_overwritten : ∃ k',
    jrtKernelInit .mapped (.zero 0) (some (.stackAt Image.mapped.idleTaskStorage)) = .ok (.ok, k')
      ∧ 0 < k'.taskCount
      ∧ ¬Launchable k' 0 (JrtTaskDefinition.stackAt Image.mapped.idleTaskStorage).setup := by
  have hinit : passes (jrtKernelInit .mapped (.zero 0)
      (some (.stackAt Image.mapped.idleTaskStorage))) (fun r =>
        r.1 == .ok && (0 < r.2.taskCount
          && (exceptionFrame r.2.memory (archRestoreTaskContext false r.2.memory (r.2.tasks 0).sp
            (.sample 0 0)).psp).pc != 0x00400000)) = true := by decide +kernel
  obtain ⟨⟨status, k'⟩, hk, htest⟩ := passes_eq_true.mp hinit
  rw [Bool.and_eq_true, beq_iff_eq, Bool.and_eq_true, bne_iff_ne] at htest
  obtain ⟨rfl, hcount, hpc⟩ := htest
  refine ⟨k', hk, of_decide_eq_true hcount, fun hlaunchable => hpc ?_⟩
  obtain ⟨r', f, hlaunch⟩ := hlaunchable false (.sample 0 0)
  rw [← hlaunch.restored, ← hlaunch.frame]
  exact hlaunch.entry

/-- A task on a stack of its own is launchable, and so are the timer service
and the idle task; no preparation writes on the stack of another. -/
theorem kernelInit_launchable_iff_sample : ∃ k',
    jrtKernelInit .mapped (.zero 0) (some (.stackAt 0x20400000)) = .ok (.ok, k')
      ∧ k'.taskCount = 3
      ∧ ∀ i < k'.taskCount,
        Launchable k' i (Image.mapped.setups (fun _ => .stackAt 0x20400000) 1 i)
          ∧ ∀ j < k'.taskCount, i ≠ j →
            ¬(Image.mapped.setups (fun _ => .stackAt 0x20400000) 1 j).Overwrites .mapped
              (Image.mapped.setups (fun _ => .stackAt 0x20400000) 1 i) := by
  have hinit : passes (jrtKernelInit .mapped (.zero 0) (some (.stackAt 0x20400000)))
      (fun r => r.1 == .ok && r.2.taskCount == 3) = true := by decide +kernel
  obtain ⟨⟨status, k'⟩, hk, htest⟩ := passes_eq_true.mp hinit
  rw [Bool.and_eq_true, beq_iff_eq, beq_iff_eq] at htest
  obtain ⟨rfl, hcount⟩ := htest
  refine ⟨k', hk, hcount, (kernelInit_launchable_iff Image.mapped_linked
    Image.mapped_stacksBuilt hk).mpr fun j hj => ?_⟩
  exact ⟨Set.Ico_disjoint_Ico.mpr (by decide), Set.Ico_disjoint_Ico.mpr (by decide)⟩

end JustRT
