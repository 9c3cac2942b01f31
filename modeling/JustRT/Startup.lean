import JustRT.Types
import JustRT.Lib.Bytes

/-!
# From reset to `main`

What `Reset_Handler` makes of memory, on both boards. On the S32K312 it clears
the SRAM and the TCMs to seed their ECC, and `init_data_bss` copies and clears
what two tables in flash say. On the QEMU board it copies the initialized data
and clears the rest. Device registers and the frames of the reset stack are left
out.
-/

namespace JustRT

open Bytes

namespace S32K312

/-! ## `startup_cm7.s` -/

/-- A register as a signed number, as `ble` and `bge` see it. -/
abbrev signed (w : UInt32) : Int := w.toBitVec.toInt

theorem signed_of_lt {w : UInt32} (h : w.toNat < 2 ^ 31) : signed w = w.toNat := by
  rw [signed, BitVec.toInt_eq_toNat_cond]
  change (if 2 * w.toNat < 2 ^ 32 then (w.toNat : Int) else _) = _
  rw [if_pos (by omega)]

theorem le_toNat_of_signed {w : UInt32} {n : Nat} (h : (n : Int) ≤ signed w) :
    n ≤ w.toNat := by
  have hlt := w.toNat_lt
  rw [signed, BitVec.toInt_eq_toNat_cond] at h
  change (n : Int) ≤ if 2 * w.toNat < 2 ^ 32 then (w.toNat : Int) else (w.toNat : Int) - 2 ^ 32 at h
  split at h
  · omega
  · omega

/-- `SRAM_LOOP`, `DTCM_LOOP` and `ITCM_LOOP`: a store of two zeros at a time, as
long as the bytes left do not turn negative. -/
def stmLoop (r1 r2 : UInt32) (m : Mem) : Mem :=
  let m := store32 (store32 m r1 0) (r1 + 4) 0
  if 8 ≤ signed r2 then stmLoop (r1 + 8) (r2 - 8) m else m
termination_by r2.toNat
decreasing_by
  next h =>
    have hle : 8 ≤ r2.toNat := le_toNat_of_signed h
    have hlt := r2.toNat_lt
    rw [UInt32.toNat_sub]
    change (2 ^ 32 - 8 + r2.toNat) % 2 ^ 32 < r2.toNat
    omega

/-- `RamInit`, `DTCM_Init` and `ITCM_Init`. -/
def clearRange (init start stop : UInt32) (m : Mem) : Mem :=
  if init = 0 then m
  else
    let size := stop - start
    if signed size ≤ 1 then m else stmLoop start (size - 1) m

/-! ## `system.c` -/

structure SysCopyLayout where
  ramStart : Ptr
  romStart : Ptr
  romEnd : Ptr
deriving DecidableEq

structure SysZeroLayout where
  ramStart : Ptr
  ramEnd : Ptr
deriving DecidableEq

def SysCopyLayout.size (l : SysCopyLayout) : UInt32 := l.romEnd - l.romStart

def SysZeroLayout.size (l : SysZeroLayout) : UInt32 := l.ramEnd - l.ramStart

def copyLayout (m : Mem) (table : Ptr) (i : Nat) : SysCopyLayout :=
  let entry := table + 4 + 12 * .ofNat i
  ⟨load32 m entry, load32 m (entry + 4), load32 m (entry + 8)⟩

def zeroLayout (m : Mem) (table : Ptr) (i : Nat) : SysZeroLayout :=
  let entry := table + 4 + 8 * .ofNat i
  ⟨load32 m entry, load32 m (entry + 4)⟩

def copyEntry (l : SysCopyLayout) (m : Mem) : Mem :=
  (List.range l.size.toNat).foldl
    (fun m j => set m (l.ramStart + .ofNat j) (m (l.romStart + .ofNat j))) m

def zeroEntry (l : SysZeroLayout) (m : Mem) : Mem :=
  (List.range l.size.toNat).foldl (fun m j => set m (l.ramStart + .ofNat j) 0) m

def initDataBss (initTable zeroTable : Ptr) (m : Mem) : Mem :=
  let len := load32 m initTable
  let m := (List.range len.toNat).foldl (fun m i => copyEntry (copyLayout m initTable i) m) m
  let len := load32 m zeroTable
  (List.range len.toNat).foldl (fun m i => zeroEntry (zeroLayout m zeroTable i) m) m

/-! ## `Reset_Handler` -/

/-- What the linker script computes from the sections. -/
structure Symbols where
  flashEnd : Ptr
  romInterruptStart : Ptr
  romInterruptEnd : Ptr
  sramBssStart : Ptr
  sramBssEnd : Ptr
  initTable : Ptr
  zeroTable : Ptr
  resetCatchCore : Ptr

def intSramStart : Ptr := 0x20400100
def intSramEnd : Ptr := 0x20413F00
def intDtcmStart : Ptr := 0x20000000
def intDtcmEnd : Ptr := 0x20010000
def intItcmStart : Ptr := 0x00000000
def intItcmEnd : Ptr := 0x00008000
def intSramNc : Ptr := 0x20415000

/-- The entries of `.init_table`. All but the vector table are empty. -/
def Symbols.copies (y : Symbols) : List SysCopyLayout :=
  [⟨intSramStart, y.flashEnd, y.flashEnd⟩, ⟨intSramNc, y.flashEnd, y.flashEnd⟩,
    ⟨intSramNc, y.flashEnd, y.flashEnd⟩, ⟨intSramNc, y.romInterruptStart, y.romInterruptEnd⟩]

def Symbols.zeros (y : Symbols) : List SysZeroLayout :=
  [⟨y.sramBssEnd, y.sramBssEnd⟩, ⟨y.sramBssEnd, y.sramBssEnd⟩, ⟨y.sramBssStart, y.sramBssEnd⟩]

/-- `Reset_Handler` up to its call of `main`, on core `coreId`. It does not get
there while the debugger gate finds its magic value. -/
def resetHandler (y : Symbols) (coreId : UInt32) (m : Mem) : Option Mem :=
  let m := if coreId = 0 then clearRange 1 intSramStart intSramEnd m else m
  let m := clearRange 1 intDtcmStart intDtcmEnd m
  let m := clearRange 1 intItcmStart intItcmEnd m
  if load32 m y.resetCatchCore = 0x5A5A5A5A then none
  else some (if coreId = 0 then initDataBss y.initTable y.zeroTable m else m)

/-! ## The loops -/

section Loops

variable {m : Mem}

/-- The loop clears eight bytes for each eight there are, and for what is left. -/
theorem stmLoop_eq (r1 r2 : UInt32) (m : Mem) (h : r2.toNat < 2 ^ 31) :
    stmLoop r1 r2 m = overlay m r1 (8 * (r2.toNat / 8 + 1)) fun _ => 0 := by
  have hpair : store32 (store32 m r1 0) (r1 + 4) 0 = overlay m r1 8 fun _ => 0 := by
    rw [store32_zero, store32_zero]
    exact overlay_overlay (n := 4) (k := 4) (by decide) fun _ _ => rfl
  rw [stmLoop, hpair, signed_of_lt h]
  by_cases hmore : 8 ≤ r2.toNat
  · have hleft : (r2 - 8).toNat = r2.toNat - 8 := by
      rw [UInt32.toNat_sub]
      change (2 ^ 32 - 8 + r2.toNat) % 2 ^ 32 = _
      omega
    rw [if_pos (by omega), stmLoop_eq (r1 + 8) (r2 - 8) _ (by omega), hleft]
    have hcount : 8 * (r2.toNat / 8 + 1) = 8 + 8 * ((r2.toNat - 8) / 8 + 1) := by omega
    rw [hcount]
    exact overlay_overlay (n := 8) (by omega) fun _ _ => rfl
  · have hcount : 8 * (r2.toNat / 8 + 1) = 8 := by omega
    rw [if_neg (by omega), hcount]
termination_by r2.toNat

theorem clearRange_eq {start stop : UInt32} {n : Nat} (hn : (stop - start).toNat = n)
    (hpos : 0 < n) (hpairs : n % 8 = 0) (hlt : n < 2 ^ 31) :
    clearRange 1 start stop m = overlay m start n fun _ => 0 := by
  have hsigned : signed (stop - start) = n := by
    rw [signed_of_lt (by omega), hn]
  have hleft : (stop - start - 1).toNat = n - 1 := by
    rw [UInt32.toNat_sub, hn]
    change (2 ^ 32 - 1 + n) % 2 ^ 32 = _
    omega
  rw [clearRange, if_neg (by decide)]
  simp only [hsigned]
  rw [if_neg (by omega), stmLoop_eq _ _ _ (by omega), hleft]
  congr 1
  omega

end Loops

/-! ## The tables -/

section Tables

variable {m : Mem} {rom : Ptr → Prop} {initTable zeroTable : Ptr}
  {copies : List SysCopyLayout} {zeros : List SysZeroLayout}

/-- A loop over the entries of a table that it leaves alone. -/
theorem foldl_table {ε : Type} {l : List ε} (inv : Mem → Prop) (read : Mem → Nat → ε)
    (act act' : ε → Mem → Mem)
    (hread : ∀ m, inv m → ∀ i (h : i < l.length), read m i = l[i])
    (hact : ∀ e ∈ l, ∀ m, inv m → act e m = act' e m ∧ inv (act' e m)) (hm : inv m) :
    (List.range l.length).foldl (fun m i => act (read m i) m) m
        = l.foldl (fun m e => act' e m) m
      ∧ inv (l.foldl (fun m e => act' e m) m) := by
  have hprefix : ∀ n ≤ l.length,
      (List.range n).foldl (fun m i => act (read m i) m) m
          = (l.take n).foldl (fun m e => act' e m) m
        ∧ inv ((l.take n).foldl (fun m e => act' e m) m) := by
    intro n hn
    induction n with
    | zero => exact ⟨rfl, hm⟩
    | succ n ih =>
        obtain ⟨heq, hinv⟩ := ih (by omega)
        have hentry := hact l[n] (List.getElem_mem _) _ hinv
        rw [List.range_succ, List.foldl_append, heq, List.foldl_cons, List.foldl_nil,
          hread _ hinv n hn, List.take_succ_eq_append_getElem hn, List.foldl_append,
          List.foldl_cons, List.foldl_nil]
        exact hentry
  have hall := hprefix l.length (Nat.le_refl _)
  rwa [List.take_length] at hall

/-- Nothing has been written where nothing is to be written. -/
def Agree (rom : Ptr → Prop) (m m' : Mem) : Prop := ∀ a, rom a → m' a = m a

theorem Agree.overlay {m' : Mem} (hm : Agree rom m m') {start : Ptr} {n : Nat} {f : Nat → UInt8}
    (houtside : ∀ a, rom a → n ≤ (a - start).toNat) : Agree rom m (overlay m' start n f) := by
  intro a ha
  rw [overlay_of_le (houtside a ha)]
  exact hm a ha

/-- The bytes from `a` upwards are not written. -/
def Fixed (rom : Ptr → Prop) (a : Ptr) (n : Nat) : Prop := ∀ i < n, rom (a + .ofNat i)

theorem load32_of_fixed {m' : Mem} (hm : Agree rom m m') {table : Ptr} {n j : Nat}
    (hfixed : Fixed rom table n) (hj : j + 4 ≤ n) :
    load32 m' (table + .ofNat j) = load32 m (table + .ofNat j) := by
  refine load32_congr fun i hi => hm _ ?_
  rw [UInt32.add_assoc, ← UInt32.ofNat_add]
  exact hfixed _ (by omega)

/-- An entry that copies from where nothing is written. -/
theorem copyEntry_eq {m' : Mem} (hm : Agree rom m m') {l : SysCopyLayout}
    (hsource : Fixed rom l.romStart l.size.toNat)
    (houtside : ∀ a, rom a → l.size.toNat ≤ (a - l.ramStart).toNat) :
    copyEntry l m'
      = overlay m' l.ramStart l.size.toNat fun i => m (l.romStart + .ofNat i) := by
  have hsize := l.size.toNat_lt
  rw [copyEntry, foldl_copy hsize.le fun i hi => houtside _ (hsource i hi)]
  exact overlay_congr fun i hi => hm _ (hsource i hi)

theorem zeroEntry_eq (l : SysZeroLayout) :
    zeroEntry l m = overlay m l.ramStart l.size.toNat fun _ => 0 :=
  foldl_set l.size.toNat_lt.le

/-- What the tables in memory say. -/
structure Tables (rom : Ptr → Prop) (m : Mem) (initTable zeroTable : Ptr)
    (copies : List SysCopyLayout) (zeros : List SysZeroLayout) : Prop where
  copyCount : load32 m initTable = .ofNat copies.length
  copyEntries : ∀ i (h : i < copies.length), copyLayout m initTable i = copies[i]
  copyFixed : Fixed rom initTable (4 + 12 * copies.length)
  zeroCount : load32 m zeroTable = .ofNat zeros.length
  zeroEntries : ∀ i (h : i < zeros.length), zeroLayout m zeroTable i = zeros[i]
  zeroFixed : Fixed rom zeroTable (4 + 8 * zeros.length)
  sources : ∀ l ∈ copies, Fixed rom l.romStart l.size.toNat
  copied : ∀ l ∈ copies, ∀ a, rom a → l.size.toNat ≤ (a - l.ramStart).toNat
  zeroed : ∀ l ∈ zeros, ∀ a, rom a → l.size.toNat ≤ (a - l.ramStart).toNat
  counts : copies.length < 2 ^ 28 ∧ zeros.length < 2 ^ 28

theorem load32_of_fixed_head {m' : Mem} (hm : Agree rom m m') {table : Ptr} {n : Nat}
    (hfixed : Fixed rom table n) (hn : 4 ≤ n) : load32 m' table = load32 m table := by
  have hword := load32_of_fixed hm hfixed (j := 0) hn
  rwa [show table + .ofNat 0 = table from UInt32.add_zero table] at hword

theorem copyLayout_of_fixed {m' : Mem} (hm : Agree rom m m') {n i : Nat}
    (hfixed : Fixed rom initTable (4 + 12 * n)) (hi : i < n) :
    copyLayout m' initTable i = copyLayout m initTable i := by
  have hentry : initTable + 4 + 12 * UInt32.ofNat i = initTable + .ofNat (4 + 12 * i) := by
    rw [UInt32.ofNat_add, UInt32.ofNat_mul, ← UInt32.add_assoc]
    rfl
  have hword : ∀ j, UInt32.ofNat (4 + 12 * i) + .ofNat j = .ofNat (4 + 12 * i + j) := fun j =>
    (UInt32.ofNat_add _ _).symm
  have h4 := hword 4
  have h8 := hword 8
  simp only [copyLayout, hentry, UInt32.add_assoc]
  rw [show (4 : UInt32) = .ofNat 4 from rfl, show (8 : UInt32) = .ofNat 8 from rfl, h4, h8,
    load32_of_fixed hm hfixed (by omega), load32_of_fixed hm hfixed (by omega),
    load32_of_fixed hm hfixed (by omega)]

theorem zeroLayout_of_fixed {m' : Mem} (hm : Agree rom m m') {n i : Nat}
    (hfixed : Fixed rom zeroTable (4 + 8 * n)) (hi : i < n) :
    zeroLayout m' zeroTable i = zeroLayout m zeroTable i := by
  have hentry : zeroTable + 4 + 8 * UInt32.ofNat i = zeroTable + .ofNat (4 + 8 * i) := by
    rw [UInt32.ofNat_add, UInt32.ofNat_mul, ← UInt32.add_assoc]
    rfl
  have h4 : UInt32.ofNat (4 + 8 * i) + .ofNat 4 = .ofNat (4 + 8 * i + 4) :=
    (UInt32.ofNat_add _ _).symm
  simp only [zeroLayout, hentry, UInt32.add_assoc]
  rw [show (4 : UInt32) = .ofNat 4 from rfl, h4, load32_of_fixed hm hfixed (by omega),
    load32_of_fixed hm hfixed (by omega)]

/-- What is copied comes from the memory ahead of it all, and nothing else
changes: the tables and the sources are not written. -/
theorem initDataBss_eq (h : Tables rom m initTable zeroTable copies zeros) :
    initDataBss initTable zeroTable m
      = zeros.foldl (fun m l => overlay m l.ramStart l.size.toNat fun _ => 0)
          (copies.foldl (fun m' l => overlay m' l.ramStart l.size.toNat
            fun i => m (l.romStart + .ofNat i)) m) := by
  obtain ⟨hcopies, hzeros⟩ := h.counts
  obtain ⟨hcopied, hagree⟩ := foldl_table (Agree rom m) (copyLayout · initTable) copyEntry
    (fun l m' => overlay m' l.ramStart l.size.toNat fun i => m (l.romStart + .ofNat i))
    (fun m' hm i hi => (copyLayout_of_fixed hm h.copyFixed hi).trans (h.copyEntries i hi))
    (fun l hl m' hm =>
      ⟨copyEntry_eq hm (h.sources l hl) (h.copied l hl), hm.overlay (h.copied l hl)⟩)
    (fun _ _ => rfl)
  obtain ⟨hzeroed, -⟩ := foldl_table (Agree rom m) (zeroLayout · zeroTable) zeroEntry
    (fun l m' => overlay m' l.ramStart l.size.toNat fun _ => 0)
    (fun m' hm i hi => (zeroLayout_of_fixed hm h.zeroFixed hi).trans (h.zeroEntries i hi))
    (fun l hl m' hm => ⟨zeroEntry_eq l, hm.overlay (h.zeroed l hl)⟩) hagree
  have hcount := (load32_of_fixed_head hagree h.zeroFixed (by omega)).trans h.zeroCount
  rw [initDataBss]
  simp only [h.copyCount, UInt32.toNat_ofNat_of_lt' (show copies.length < 2 ^ 32 by omega),
    hcopied, hcount, UInt32.toNat_ofNat_of_lt' (show zeros.length < 2 ^ 32 by omega)]
  exact hzeroed

end Tables

/-! ## On the S32K312 -/

/-- `int_flash`. -/
def Flash (a : Ptr) : Prop := 0x00400000 ≤ a.toNat ∧ a.toNat < 0x00564000

/-- The SRAM of the kernel and the application, and the TCMs. -/
def Cleared (a : Ptr) : Prop :=
  (intSramStart.toNat ≤ a.toNat ∧ a.toNat < intSramEnd.toNat)
    ∨ (intDtcmStart.toNat ≤ a.toNat ∧ a.toNat < intDtcmEnd.toNat)
    ∨ (intItcmStart.toNat ≤ a.toNat ∧ a.toNat < intItcmEnd.toNat)

/-- Where the vector table is copied to: the start of the non-cacheable SRAM. -/
def Symbols.Copied (y : Symbols) (a : Ptr) : Prop :=
  intSramNc.toNat ≤ a.toNat
    ∧ a.toNat < intSramNc.toNat + (y.romInterruptEnd.toNat - y.romInterruptStart.toNat)

/-- The memories the code ahead of `main` may not touch but where it clears and
copies: below the device registers, and without `int_sram_stack`, on which
`init_data_bss` has its frame. -/
def Followed (a : Ptr) : Prop :=
  a.toNat < 0x40000000 ∧ ¬(0x20414000 ≤ a.toNat ∧ a.toNat < 0x20415000)

/-- The symbols are as the linker script places them, and the tables are in
flash. -/
structure Linked (y : Symbols) (m : Mem) : Prop where
  initTable : 0x00400000 ≤ y.initTable.toNat ∧ y.initTable.toNat + 52 ≤ 0x00564000
  zeroTable : 0x00400000 ≤ y.zeroTable.toNat ∧ y.zeroTable.toNat + 28 ≤ 0x00564000
  interrupts : 0x00400000 ≤ y.romInterruptStart.toNat
    ∧ y.romInterruptStart.toNat ≤ y.romInterruptEnd.toNat
    ∧ y.romInterruptEnd.toNat ≤ 0x00564000
    ∧ y.romInterruptEnd.toNat - y.romInterruptStart.toNat ≤ 0x7F00
  bss : intSramStart.toNat ≤ y.sramBssStart.toNat ∧ y.sramBssStart.toNat ≤ y.sramBssEnd.toNat
    ∧ y.sramBssEnd.toNat ≤ intSramEnd.toNat
  gate : y.sramBssStart.toNat ≤ y.resetCatchCore.toNat
    ∧ y.resetCatchCore.toNat + 4 ≤ y.sramBssEnd.toNat
  copies : load32 m y.initTable = 4
    ∧ ∀ i (h : i < y.copies.length), copyLayout m y.initTable i = y.copies[i]
  zeros : load32 m y.zeroTable = 3
    ∧ ∀ i (h : i < y.zeros.length), zeroLayout m y.zeroTable i = y.zeros[i]

section Reset

variable {y : Symbols} {m : Mem}

theorem fixed_flash {a : Ptr} {n : Nat} (h : 0x00400000 ≤ a.toNat)
    (hend : a.toNat + n ≤ 0x00564000) : Fixed Flash a n := by
  intro i hi
  rw [Flash, toNat_add_ofNat (by omega)]
  omega

theorem clearRange_cleared (m : Mem) (a : Ptr) :
    (Cleared a → clearRange 1 intItcmStart intItcmEnd (clearRange 1 intDtcmStart intDtcmEnd
        (clearRange 1 intSramStart intSramEnd m)) a = 0)
      ∧ (¬Cleared a → clearRange 1 intItcmStart intItcmEnd (clearRange 1 intDtcmStart intDtcmEnd
        (clearRange 1 intSramStart intSramEnd m)) a = m a) := by
  have hitcm : (a - intItcmStart).toNat < 0x8000
      ↔ intItcmStart.toNat ≤ a.toNat ∧ a.toNat < intItcmEnd.toNat := toNat_sub_lt_iff (by decide)
  have hdtcm : (a - intDtcmStart).toNat < 0x10000
      ↔ intDtcmStart.toNat ≤ a.toNat ∧ a.toNat < intDtcmEnd.toNat := toNat_sub_lt_iff (by decide)
  have hsram : (a - intSramStart).toNat < 0x13E00
      ↔ intSramStart.toNat ≤ a.toNat ∧ a.toNat < intSramEnd.toNat := toNat_sub_lt_iff (by decide)
  rw [clearRange_eq (n := 0x8000) (by decide) (by decide) (by decide) (by decide),
    clearRange_eq (n := 0x10000) (by decide) (by decide) (by decide) (by decide),
    clearRange_eq (n := 0x13E00) (by decide) (by decide) (by decide) (by decide)]
  rw [Cleared, ← hitcm, ← hdtcm, ← hsram]
  constructor
  · rintro (h | h | h)
    · simp [overlay, h]
    · simp [overlay, h]
    · exact if_pos h
  · intro h
    obtain ⟨h₁, h₂, h₃⟩ : _ ∧ _ ∧ _ := by simpa only [not_or] using h
    simp [overlay, h₁, h₂, h₃]

/-- Flash is not cleared, nor is the memory the vector table is copied to. -/
theorem not_cleared {a : Ptr} (h : Flash a ∨ intSramNc.toNat ≤ a.toNat) : ¬Cleared a := by
  intro hcleared
  rw [Flash] at h
  rw [Cleared] at hcleared
  have h₁ : intSramStart.toNat = 0x20400100 := rfl
  have h₂ : intSramEnd.toNat = 0x20413F00 := rfl
  have h₃ : intDtcmStart.toNat = 0x20000000 := rfl
  have h₄ : intDtcmEnd.toNat = 0x20010000 := rfl
  have h₅ : intItcmEnd.toNat = 0x00008000 := rfl
  have h₆ : intSramNc.toNat = 0x20415000 := rfl
  omega

/-- All entries of the tables are empty but one of each. -/
theorem mem_copies {l : SysCopyLayout} (hl : l ∈ y.copies) :
    l.size.toNat = 0 ∨ l = ⟨intSramNc, y.romInterruptStart, y.romInterruptEnd⟩ := by
  simp only [Symbols.copies, List.mem_cons, List.not_mem_nil, or_false] at hl
  rcases hl with rfl | rfl | rfl | rfl
  · exact .inl (by simp [SysCopyLayout.size])
  · exact .inl (by simp [SysCopyLayout.size])
  · exact .inl (by simp [SysCopyLayout.size])
  · exact .inr rfl

theorem mem_zeros {l : SysZeroLayout} (hl : l ∈ y.zeros) :
    l.size.toNat = 0 ∨ l = ⟨y.sramBssStart, y.sramBssEnd⟩ := by
  simp only [Symbols.zeros, List.mem_cons, List.not_mem_nil, or_false] at hl
  rcases hl with rfl | rfl | rfl
  · exact .inl (by simp [SysZeroLayout.size])
  · exact .inl (by simp [SysZeroLayout.size])
  · exact .inr rfl

theorem Linked.vectors (h : Linked y m) :
    (⟨intSramNc, y.romInterruptStart, y.romInterruptEnd⟩ : SysCopyLayout).size.toNat
      = y.romInterruptEnd.toNat - y.romInterruptStart.toNat :=
  UInt32.toNat_sub_of_le _ _ h.interrupts.2.1

theorem Linked.bssSize (h : Linked y m) :
    (⟨y.sramBssStart, y.sramBssEnd⟩ : SysZeroLayout).size.toNat
      = y.sramBssEnd.toNat - y.sramBssStart.toNat :=
  UInt32.toNat_sub_of_le _ _ h.bss.2.1

/-- The tables are read as they are in flash, and write outside of it. -/
theorem Linked.tables {m' : Mem} (h : Linked y m) (hm : Agree Flash m m') :
    Tables Flash m' y.initTable y.zeroTable y.copies y.zeros := by
  have hinit : Fixed Flash y.initTable (4 + 12 * 4) := fixed_flash h.initTable.1 h.initTable.2
  have hzero : Fixed Flash y.zeroTable (4 + 8 * 3) := fixed_flash h.zeroTable.1 h.zeroTable.2
  obtain ⟨hstart, hle, hend, hlen⟩ := h.interrupts
  obtain ⟨hbss, hbssLe, hbssEnd⟩ := h.bss
  have hsram : intSramStart.toNat = 0x20400100 := rfl
  have hsramEnd : intSramEnd.toNat = 0x20413F00 := rfl
  have hnc : intSramNc.toNat = 0x20415000 := rfl
  refine ⟨(load32_of_fixed_head hm hinit (by decide)).trans h.copies.1,
    fun i hi => (copyLayout_of_fixed hm hinit hi).trans (h.copies.2 i hi), hinit,
    (load32_of_fixed_head hm hzero (by decide)).trans h.zeros.1,
    fun i hi => (zeroLayout_of_fixed hm hzero hi).trans (h.zeros.2 i hi), hzero,
    fun l hl => ?_, fun l hl a ha => ?_, fun l hl a ha => ?_, ?_⟩
  · rcases mem_copies hl with hempty | rfl
    · rw [hempty]
      intro i hi
      cases hi
    · rw [h.vectors]
      exact fixed_flash hstart (by change y.romInterruptStart.toNat + _ ≤ _; omega)
  · rcases mem_copies hl with hempty | rfl
    · rw [hempty]
      exact Nat.zero_le _
    · obtain ⟨hlow, hhigh⟩ := ha
      rw [h.vectors, UInt32.toNat_sub, hnc]
      omega
  · rcases mem_zeros hl with hempty | rfl
    · rw [hempty]
      exact Nat.zero_le _
    · obtain ⟨hlow, hhigh⟩ := ha
      rw [h.bssSize, UInt32.toNat_sub]
      change _ ≤ (2 ^ 32 - y.sramBssStart.toNat + a.toNat) % 2 ^ 32
      omega
  · exact ⟨by simp [Symbols.copies], by simp [Symbols.zeros]⟩

/-- `init_data_bss` copies the vector table, and clears what is clear. -/
theorem Linked.initDataBss_eq {m' : Mem} (h : Linked y m) (hm : Agree Flash m m') :
    initDataBss y.initTable y.zeroTable m'
      = overlay (overlay m' intSramNc (y.romInterruptEnd.toNat - y.romInterruptStart.toNat)
            fun i => m' (y.romInterruptStart + .ofNat i))
          y.sramBssStart (y.sramBssEnd.toNat - y.sramBssStart.toNat) fun _ => 0 := by
  rw [S32K312.initDataBss_eq (h.tables hm)]
  have hvectors := h.vectors
  have hbss := h.bssSize
  simp only [SysCopyLayout.size] at hvectors
  simp only [SysZeroLayout.size] at hbss
  simp [Symbols.copies, Symbols.zeros, SysCopyLayout.size, SysZeroLayout.size, hvectors, hbss]

theorem Linked.gate_open {m' : Mem} (h : Linked y m) (hm : ∀ a, Cleared a → m' a = 0) :
    load32 m' y.resetCatchCore = 0 := by
  obtain ⟨hstart, hend⟩ := h.gate
  obtain ⟨hbss, -, hbssEnd⟩ := h.bss
  have hlt := y.sramBssEnd.toNat_lt
  have hload : load32 m' y.resetCatchCore = load32 (fun _ => 0) y.resetCatchCore := by
    refine load32_congr fun i hi => hm _ (.inl ?_)
    have htoNat : (y.resetCatchCore + .ofNat i).toNat = y.resetCatchCore.toNat + i :=
      toNat_add_ofNat (by omega)
    omega
  rw [hload]
  rfl

/-- The main core gets from reset to `main`, whatever memory holds. The SRAM and
the TCMs are all zero there, initialized data included: of the copy ranges in the
table only that of the vector table is not empty. The vector table is at the
start of the non-cacheable SRAM, and no other byte has changed: not in flash, not
behind the vector table, and not in the gaps between the memories, although the
`stm` loops look at the bytes left only behind each store. -/
theorem reset_clears (h : Linked y m) : ∃ m', resetHandler y 0 m = some m'
    ∧ (∀ a, Cleared a → m' a = 0)
    ∧ (∀ i < y.romInterruptEnd.toNat - y.romInterruptStart.toNat,
        m' (intSramNc + .ofNat i) = m (y.romInterruptStart + .ofNat i))
    ∧ ∀ a, Followed a → ¬Cleared a → ¬y.Copied a → m' a = m a := by
  have hclear := clearRange_cleared m
  rw [resetHandler, if_pos rfl]
  simp only [if_true]
  generalize clearRange 1 intItcmStart intItcmEnd (clearRange 1 intDtcmStart intDtcmEnd
    (clearRange 1 intSramStart intSramEnd m)) = m₁ at hclear
  have hagree : Agree Flash m m₁ := fun a ha => (hclear a).2 (not_cleared (.inl ha))
  obtain ⟨hbss, hbssLe, hbssEnd⟩ := h.bss
  obtain ⟨hstart, hle, hend, hlen⟩ := h.interrupts
  have hsram : intSramStart.toNat = 0x20400100 := rfl
  have hsramEnd : intSramEnd.toNat = 0x20413F00 := rfl
  have hnc : intSramNc.toNat = 0x20415000 := rfl
  have hinBss : ∀ a : Ptr, (a - y.sramBssStart).toNat < y.sramBssEnd.toNat - y.sramBssStart.toNat
      ↔ y.sramBssStart.toNat ≤ a.toNat ∧ a.toNat < y.sramBssEnd.toNat :=
    fun _ => toNat_sub_lt_iff (by omega)
  rw [h.gate_open fun a ha => (hclear a).1 ha, if_neg (by decide), h.initDataBss_eq hagree]
  refine ⟨_, rfl, fun a ha => ?_, fun i hi => ?_, fun a _ ha hcopied => ?_⟩
  · by_cases hin : y.sramBssStart.toNat ≤ a.toNat ∧ a.toNat < y.sramBssEnd.toNat
    · exact overlay_of_lt ((hinBss a).mpr hin)
    · have hlow : a.toNat < intSramNc.toNat := by
        by_contra hge
        exact not_cleared (.inr (Nat.not_lt.mp hge)) ha
      rw [overlay_of_le (Nat.not_lt.mp fun hlt => hin ((hinBss a).mp hlt)), overlay_of_le ?_]
      · exact (hclear a).1 ha
      · rw [UInt32.toNat_sub, hnc]
        omega
  · have htoNat : (intSramNc + .ofNat i).toNat = intSramNc.toNat + i :=
      toNat_add_ofNat (by omega)
    have hout : ¬(intSramNc + .ofNat i - y.sramBssStart).toNat
        < y.sramBssEnd.toNat - y.sramBssStart.toNat := by
      rw [hinBss]
      omega
    have hsub : (intSramNc + .ofNat i - intSramNc).toNat = i := toNat_add_ofNat_sub (by omega)
    rw [overlay_of_le (Nat.not_lt.mp hout), overlay, hsub, if_pos hi]
    exact hagree _ (fixed_flash hstart (by omega) i hi)
  · -- The zero table stays within the SRAM that has been cleared.
    have hout : ¬(a - y.sramBssStart).toNat < y.sramBssEnd.toNat - y.sramBssStart.toNat := by
      rw [hinBss]
      rintro ⟨hlow, hhigh⟩
      exact ha (.inl ⟨by omega, by omega⟩)
    have hfar : y.romInterruptEnd.toNat - y.romInterruptStart.toNat ≤ (a - intSramNc).toNat := by
      have halt := a.toNat_lt
      by_contra hnear
      rw [UInt32.toNat_sub, hnc] at hnear
      exact hcopied ⟨by omega, by omega⟩
    rw [overlay_of_le (Nat.not_lt.mp hout), overlay_of_le hfar]
    exact (hclear a).2 ha

end Reset

def sampleSymbols : Symbols where
  flashEnd := 0x00510000
  romInterruptStart := 0x00401000
  romInterruptEnd := 0x00401400
  sramBssStart := 0x20406000
  sramBssEnd := 0x20410000
  initTable := 0x00500000
  zeroTable := 0x00500034
  resetCatchCore := 0x20406000

/-- A memory that holds its tables, and noise elsewhere. -/
def sampleMem : Mem :=
  let words := 4 :: (sampleSymbols.copies.flatMap fun l => [l.ramStart, l.romStart, l.romEnd])
    ++ 3 :: sampleSymbols.zeros.flatMap fun l => [l.ramStart, l.ramEnd]
  words.zipIdx.foldl (fun m w => store32 m (0x00500000 + 4 * .ofNat w.2) w.1) fun a => a.toUInt8

theorem sample_linked : Linked sampleSymbols sampleMem where
  initTable := by decide
  zeroTable := by decide
  interrupts := by decide
  bss := by decide
  gate := by decide
  copies := by decide +kernel
  zeros := by decide +kernel

/-- A byte of the SRAM, one of the vector table, and one behind the SRAM. -/
theorem reset_clears_sample : ∃ m', resetHandler sampleSymbols 0 sampleMem = some m'
    ∧ m' 0x20400105 = 0 ∧ m' (intSramNc + .ofNat 3) = 3 ∧ m' 0x20413F07 = 7 := by
  obtain ⟨m', hreset, hclear, hvectors, hframe⟩ := reset_clears sample_linked
  have hbyte : sampleMem (0x00401000 + .ofNat 3) = 3 := by decide +kernel
  have hbehind : sampleMem 0x20413F07 = 7 := by decide +kernel
  have hgap : ¬Cleared 0x20413F07 := by
    rintro (⟨-, hlt⟩ | ⟨-, hlt⟩ | ⟨-, hlt⟩) <;> exact absurd hlt (by decide)
  exact ⟨m', hreset, hclear _ (.inl (by decide)), (hvectors 3 (by decide)).trans hbyte,
    (hframe _ ⟨by decide, by decide⟩ hgap fun hcopied => absurd hcopied.1 (by decide)).trans hbehind⟩

end S32K312

namespace QemuMps2An385

/-! ## On the QEMU board -/

/-- What the linker script computes from the sections. -/
structure Symbols where
  dataLoadStart : Ptr
  dataStart : Ptr
  dataEnd : Ptr
  zeroStart : Ptr
  zeroEnd : Ptr

def copyData : Nat → UInt32 → UInt32 → UInt32 → Mem → Option Mem
  | 0, _, _, _, _ => none
  | fuel + 1, r0, r1, r2, m =>
      if r1 ≥ r2 then some m
      else copyData fuel (r0 + 4) (r1 + 4) r2 (store32 m r1 (load32 m r0))

def zeroBss : Nat → UInt32 → UInt32 → Mem → Option Mem
  | 0, _, _, _ => none
  | fuel + 1, r1, r2, m =>
      if r1 ≥ r2 then some m else zeroBss fuel (r1 + 4) r2 (store32 m r1 0)

/-- `Reset_Handler` up to its call of `main`. -/
def resetHandler (fuel : Nat) (y : Symbols) (m : Mem) : Option Mem := do
  let m ← copyData fuel y.dataLoadStart y.dataStart y.dataEnd m
  zeroBss fuel y.zeroStart y.zeroEnd m

section Loops

variable {m : Mem} {src dst : UInt32} {k n fuel : Nat}

theorem add_ofNat_four (dst : UInt32) (k : Nat) :
    dst + .ofNat (4 * k) + 4 = dst + .ofNat (4 * (k + 1)) := by
  rw [UInt32.add_assoc, Nat.mul_succ, UInt32.ofNat_add]
  rfl

theorem words_left (hend : dst.toNat + 4 * (k + (n + 1)) < 2 ^ 32) :
    ¬dst + .ofNat (4 * k) ≥ dst + .ofNat (4 * (k + (n + 1))) := by
  rw [ge_iff_le, UInt32.le_iff_toNat_le, toNat_add_ofNat hend, toNat_add_ofNat (by omega)]
  omega

theorem copyData_eq (hend : dst.toNat + 4 * (k + n) < 2 ^ 32)
    (hsrc : ∀ i < 4 * (k + n), 4 * (k + n) ≤ (src + .ofNat i - dst).toNat) (hfuel : n < fuel) :
    copyData fuel (src + .ofNat (4 * k)) (dst + .ofNat (4 * k)) (dst + .ofNat (4 * (k + n)))
        (overlay m dst (4 * k) fun i => m (src + .ofNat i))
      = some (overlay m dst (4 * (k + n)) fun i => m (src + .ofNat i)) := by
  induction n generalizing k fuel with
  | zero =>
      obtain ⟨fuel, rfl⟩ : ∃ f, fuel = f + 1 := ⟨fuel - 1, by omega⟩
      rw [copyData, Nat.add_zero, if_pos (UInt32.le_refl _)]
  | succ n ih =>
      obtain ⟨fuel, rfl⟩ : ∃ f, fuel = f + 1 := ⟨fuel - 1, by omega⟩
      -- The word is copied from where nothing has been written.
      have hword : store32 (overlay m dst (4 * k) fun i => m (src + .ofNat i))
          (dst + .ofNat (4 * k))
          (load32 (overlay m dst (4 * k) fun i => m (src + .ofNat i)) (src + .ofNat (4 * k)))
            = overlay m dst (4 * (k + 1)) fun i => m (src + .ofNat i) := by
        rw [store32_load32]
        refine overlay_overlay (by omega) fun i hi => ?_
        rw [UInt32.add_assoc, ← UInt32.ofNat_add]
        have hfar := hsrc (4 * k + i) (by omega)
        exact overlay_of_le (by omega)
      have hcount : k + (n + 1) = k + 1 + n := by omega
      rw [copyData, if_neg (words_left hend), hword, add_ofNat_four, add_ofNat_four, hcount]
      rw [hcount] at hend hsrc
      exact ih hend hsrc (by omega)

theorem zeroBss_eq (hend : dst.toNat + 4 * (k + n) < 2 ^ 32) (hfuel : n < fuel) :
    zeroBss fuel (dst + .ofNat (4 * k)) (dst + .ofNat (4 * (k + n)))
        (overlay m dst (4 * k) fun _ => 0)
      = some (overlay m dst (4 * (k + n)) fun _ => 0) := by
  induction n generalizing k fuel with
  | zero =>
      obtain ⟨fuel, rfl⟩ : ∃ f, fuel = f + 1 := ⟨fuel - 1, by omega⟩
      rw [zeroBss, Nat.add_zero, if_pos (UInt32.le_refl _)]
  | succ n ih =>
      obtain ⟨fuel, rfl⟩ : ∃ f, fuel = f + 1 := ⟨fuel - 1, by omega⟩
      have hword : store32 (overlay m dst (4 * k) fun _ => 0) (dst + .ofNat (4 * k)) 0
          = overlay m dst (4 * (k + 1)) fun _ => 0 := by
        rw [store32_zero]
        exact overlay_overlay (by omega) fun _ _ => rfl
      have hcount : k + (n + 1) = k + 1 + n := by omega
      rw [zeroBss, if_neg (words_left hend), hword, add_ofNat_four, hcount]
      rw [hcount] at hend
      exact ih hend (by omega)

theorem add_ofNat_words {stop : UInt32} (h : stop.toNat = dst.toNat + 4 * n) :
    dst + .ofNat (4 * n) = stop := by
  refine UInt32.toNat_inj.mp ?_
  have hlt := stop.toNat_lt
  rw [toNat_add_ofNat (by omega), h]

theorem copyData_range {stop : UInt32} (hstop : stop.toNat = dst.toNat + 4 * n)
    (hsrc : ∀ i < 4 * n, 4 * n ≤ (src + .ofNat i - dst).toNat) (hfuel : n < fuel) :
    copyData fuel src dst stop m = some (overlay m dst (4 * n) fun i => m (src + .ofNat i)) := by
  have hlt := stop.toNat_lt
  have hend : dst.toNat + 4 * (0 + n) < 2 ^ 32 := by omega
  have hrange := copyData_eq (m := m) hend (by rw [Nat.zero_add]; exact hsrc) hfuel
  rw [Nat.zero_add, Nat.mul_zero, overlay_zero, add_ofNat_words hstop] at hrange
  simpa using hrange

theorem zeroBss_range {stop : UInt32} (hstop : stop.toNat = dst.toNat + 4 * n)
    (hfuel : n < fuel) : zeroBss fuel dst stop m = some (overlay m dst (4 * n) fun _ => 0) := by
  have hlt := stop.toNat_lt
  have hend : dst.toNat + 4 * (0 + n) < 2 ^ 32 := by omega
  have hrange := zeroBss_eq (m := m) hend hfuel
  rw [Nat.zero_add, Nat.mul_zero, overlay_zero, add_ofNat_words hstop] at hrange
  simpa using hrange

end Loops

/-! ## `main` on the QEMU board -/

/-- The symbols are as the linker script places them. -/
structure Linked (y : Symbols) : Prop where
  load : y.dataLoadStart.toNat + (y.dataEnd.toNat - y.dataStart.toNat) ≤ 0x00400000
  data : 0x20000000 ≤ y.dataStart.toNat ∧ y.dataStart.toNat ≤ y.dataEnd.toNat
    ∧ y.dataStart.toNat % 8 = 0 ∧ y.dataEnd.toNat % 8 = 0
  zero : y.dataEnd.toNat ≤ y.zeroStart.toNat ∧ y.zeroStart.toNat ≤ y.zeroEnd.toNat
    ∧ y.zeroStart.toNat % 32 = 0 ∧ y.zeroEnd.toNat % 8 = 0
  stack : y.zeroEnd.toNat ≤ 0x20400000

/-- The core gets from reset to `main`, whatever memory holds: the initialized
data is what flash says, the rest of the data is zero, and nothing else has
changed. -/
theorem reset_initializes {y : Symbols} {m : Mem} {fuel : Nat} (h : Linked y)
    (hfuel : 2 ^ 20 < fuel) : ∃ m', resetHandler fuel y m = some m'
    ∧ (∀ i < y.dataEnd.toNat - y.dataStart.toNat,
        m' (y.dataStart + .ofNat i) = m (y.dataLoadStart + .ofNat i))
    ∧ (∀ a : Ptr, y.zeroStart.toNat ≤ a.toNat → a.toNat < y.zeroEnd.toNat → m' a = 0)
    ∧ ∀ a : Ptr, ¬(y.dataStart.toNat ≤ a.toNat ∧ a.toNat < y.dataEnd.toNat) →
        ¬(y.zeroStart.toNat ≤ a.toNat ∧ a.toNat < y.zeroEnd.toNat) → m' a = m a := by
  obtain ⟨hlow, hdata, hdataStart, hdataEnd⟩ := h.data
  obtain ⟨hbehind, hzero, hzeroStart, hzeroEnd⟩ := h.zero
  have hload := h.load
  have hstack := h.stack
  obtain ⟨nd, hnd⟩ : ∃ n, y.dataEnd.toNat = y.dataStart.toNat + 4 * n :=
    ⟨(y.dataEnd.toNat - y.dataStart.toNat) / 4, by omega⟩
  obtain ⟨nz, hnz⟩ : ∃ n, y.zeroEnd.toNat = y.zeroStart.toNat + 4 * n :=
    ⟨(y.zeroEnd.toNat - y.zeroStart.toNat) / 4, by omega⟩
  have hsrc : ∀ i < 4 * nd, 4 * nd ≤ (y.dataLoadStart + .ofNat i - y.dataStart).toNat := by
    intro i hi
    rw [UInt32.toNat_sub, toNat_add_ofNat (by omega)]
    omega
  have hinData : ∀ a : Ptr, (a - y.dataStart).toNat < 4 * nd
      ↔ y.dataStart.toNat ≤ a.toNat ∧ a.toNat < y.dataEnd.toNat := fun _ => toNat_sub_lt_iff hnd
  have hinZero : ∀ a : Ptr, (a - y.zeroStart).toNat < 4 * nz
      ↔ y.zeroStart.toNat ≤ a.toNat ∧ a.toNat < y.zeroEnd.toNat := fun _ => toNat_sub_lt_iff hnz
  have hreset : resetHandler fuel y m = some (overlay (overlay m y.dataStart (4 * nd)
      fun i => m (y.dataLoadStart + .ofNat i)) y.zeroStart (4 * nz) fun _ => 0) := by
    rw [resetHandler, copyData_range hnd hsrc (by omega)]
    exact zeroBss_range hnz (by omega)
  refine ⟨_, hreset, fun i hi => ?_, fun a hstart hend => ?_, fun a hdata' hzero' => ?_⟩
  · have htoNat : (y.dataStart + .ofNat i).toNat = y.dataStart.toNat + i :=
      toNat_add_ofNat (by omega)
    have hsub : (y.dataStart + .ofNat i - y.dataStart).toNat = i := toNat_add_ofNat_sub (by omega)
    have hout : ¬(y.dataStart + .ofNat i - y.zeroStart).toNat < 4 * nz := by
      rw [hinZero]
      omega
    rw [overlay_of_le (Nat.not_lt.mp hout), overlay_of_lt (by omega), hsub]
  · exact overlay_of_lt ((hinZero a).mpr ⟨hstart, hend⟩)
  · have houtZero : ¬(a - y.zeroStart).toNat < 4 * nz := fun hlt => hzero' ((hinZero a).mp hlt)
    have houtData : ¬(a - y.dataStart).toNat < 4 * nd := fun hlt => hdata' ((hinData a).mp hlt)
    rw [overlay_of_le (Nat.not_lt.mp houtZero), overlay_of_le (Nat.not_lt.mp houtData)]

def sampleSymbols : Symbols where
  dataLoadStart := 0x00008000
  dataStart := 0x20000000
  dataEnd := 0x20000008
  zeroStart := 0x20000020
  zeroEnd := 0x20010000

theorem reset_initializes_sample : ∃ m', resetHandler (2 ^ 20 + 1) sampleSymbols
      (fun a => a.toUInt8 + 7) = some m'
    ∧ m' (0x20000000 + .ofNat 5) = 12 ∧ m' 0x20000120 = 0 := by
  have hlinked : Linked sampleSymbols := ⟨by decide, by decide, by decide, by decide⟩
  obtain ⟨m', hreset, hdata, hzero, -⟩ :=
    reset_initializes (m := fun a => a.toUInt8 + 7) hlinked (Nat.lt_succ_self (2 ^ 20))
  exact ⟨m', hreset, hdata 5 (by decide), hzero _ (by decide) (by decide)⟩

end QemuMps2An385

end JustRT
