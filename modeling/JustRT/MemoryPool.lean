import JustRT.Types
import JustRT.Lib.Bitmap
import JustRT.Lib.Blocks
import Mathlib.Data.Fintype.Card

/-!
# Memory pools

`mempool.c`: blocks of one size in a static storage, and a bitmap of the
blocks in use. The functions work on the pool records and the words of
memory the bitmaps lie in; what the blocks themselves hold plays no part.
They refine a finite set of outstanding blocks.
-/

namespace JustRT

/-! ## The code -/

structure JrtMemoryPool where
  storage : Ptr
  usedBitmap : Ptr
  blockSize : UInt32
  blockCount : UInt32
deriving Repr, DecidableEq

/-- The pool records and the words of memory. -/
structure Pools where
  pools : Ptr → JrtMemoryPool
  memory : Memory

def bitmapWords (blockCount : UInt32) : UInt32 := (blockCount + 31) / 32

/-- Store a word. -/
def Memory.write (memory : Memory) (address : Ptr) (word : UInt32) : Memory :=
  fun a => if a = address then word else memory a

def bitmapAddress (usedBitmap : Ptr) (word : UInt32) : Ptr := usedBitmap + word * 4

/-- `1UL << (index % 32U)`. -/
def bitmapMask (index : UInt32) : UInt32 := 1 <<< (index % 32)

def jrtMemoryPoolCreateStatic (k : Pools) (pool storage : Ptr) (blockSize blockCount : UInt32)
    (usedBitmap : Ptr) : Pools :=
  if pool = 0 ∨ storage = 0 ∨ usedBitmap = 0 ∨ blockSize < 4 ∨ blockCount = 0 then k
  else
    { pools := fun a =>
        if a = pool then { storage, usedBitmap, blockSize, blockCount } else k.pools a
      memory := (List.range (bitmapWords blockCount).toNat).foldl
        (fun memory index => memory.write (bitmapAddress usedBitmap (UInt32.ofNat index)) 0)
        k.memory }

/-- The loop of `JRT_MemoryPoolAllocate`, with `fuel` blocks left. -/
def allocateLoop (p : JrtMemoryPool) : Nat → UInt32 → Memory → Ptr × Memory
  | 0, _, memory => (0, memory)
  | fuel + 1, index, memory =>
      let word := bitmapAddress p.usedBitmap (index / 32)
      let mask := bitmapMask index
      if memory word &&& mask = 0 then
        (p.storage + index * p.blockSize, memory.write word (memory word ||| mask))
      else allocateLoop p fuel (index + 1) memory

def jrtMemoryPoolAllocate (k : Pools) (pool : Ptr) : Ptr × Pools :=
  let p := k.pools pool
  if pool = 0 ∨ p.storage = 0 ∨ p.usedBitmap = 0 then (0, k)
  else
    let r := allocateLoop p p.blockCount.toNat 0 k.memory
    (r.1, { k with memory := r.2 })

def jrtMemoryPoolFree (k : Pools) (pool block : Ptr) : UInt32 × Pools :=
  let p := k.pools pool
  if pool = 0 ∨ block = 0 ∨ p.storage = 0 ∨ p.usedBitmap = 0 ∨ p.blockSize = 0 then (0, k)
  else if block < p.storage ∨ block ≥ p.storage + p.blockSize * p.blockCount then (0, k)
  else
    let offset := block - p.storage
    if offset % p.blockSize ≠ 0 then (0, k)
    else
      let index := offset / p.blockSize
      let word := bitmapAddress p.usedBitmap (index / 32)
      let mask := bitmapMask index
      if k.memory word &&& mask = 0 then (0, k)
      else (1, { k with memory := k.memory.write word (k.memory word &&& ~~~mask) })

/-! ## Valid pools -/

/-- Valid arguments of `JRT_MemoryPoolCreateStatic`, over storage whose end
address has 32 bits. -/
structure PoolGeometry where
  pool : Ptr
  storage : Ptr
  blockSize : UInt32
  blockCount : UInt32
  usedBitmap : Ptr
  pool_ne : pool ≠ 0
  storage_ne : storage ≠ 0
  usedBitmap_ne : usedBitmap ≠ 0
  blockSize_ge : 4 ≤ blockSize.toNat
  blockCount_pos : 0 < blockCount.toNat
  end_lt : storage.toNat + blockCount.toNat * blockSize.toNat < 4294967296

theorem bitmapMask_toBitVec (index : UInt32) :
    (bitmapMask index).toBitVec = 1#32 <<< (index.toNat % 32) := by
  unfold bitmapMask
  rw [UInt32.toBitVec_shiftLeft, BitVec.shiftLeft_eq', BitVec.toNat_umod]
  have h : (index % 32).toBitVec.toNat % (32#32).toNat = index.toNat % 32 := by
    rw [UInt32.toNat_toBitVec, UInt32.toNat_mod]
    exact Nat.mod_mod _ _
  exact congrArg _ h

theorem bitmapWord_eq (index : UInt32) : index / 32 = UInt32.ofNat (index.toNat / 32) := by
  apply UInt32.toNat_inj.mp
  have hlt := index.toNat_lt
  rw [UInt32.toNat_div, UInt32.toNat_ofNat_of_lt' (by change index.toNat / 32 < 4294967296; omega)]
  rfl

namespace PoolGeometry

variable (g : PoolGeometry)

def created (k : Pools) : Pools :=
  jrtMemoryPoolCreateStatic k g.pool g.storage g.blockSize g.blockCount g.usedBitmap

def count : Nat := g.blockCount.toNat

/-- The address of block `i`. -/
def address (i : Fin g.count) : Ptr := g.storage + UInt32.ofNat i * g.blockSize

def words (memory : Memory) (word : Nat) : BitVec 32 :=
  (memory (bitmapAddress g.usedBitmap (UInt32.ofNat word))).toBitVec

def size : Nat := (bitmapWords g.blockCount).toNat

/-- What the code's state says: the pool is as created, and the bitmap holds
the outstanding blocks, and no bit beyond the last block. -/
structure Holds (k : Pools) (used : Finset (Fin g.count)) : Prop where
  pool : k.pools g.pool = ⟨g.storage, g.usedBitmap, g.blockSize, g.blockCount⟩
  bits : Bitmap.Represents (g.words k.memory) g.size fun i => ∃ h : i < g.count, ⟨i, h⟩ ∈ used

variable {g}

theorem count_lt : g.count < 1073741824 := by
  have hsize := g.blockSize_ge
  have hend := g.end_lt
  have hmul : g.blockCount.toNat * 4 ≤ g.blockCount.toNat * g.blockSize.toNat :=
    Nat.mul_le_mul_left _ hsize
  unfold count
  omega

theorem size_eq : g.size = (g.count + 31) / 32 := by
  have hlt := g.count_lt
  unfold size bitmapWords
  rw [UInt32.toNat_div, UInt32.toNat_add]
  change (g.count + 31) % 4294967296 / 32 = _
  rw [Nat.mod_eq_of_lt (by omega)]

theorem lt_bits {i : Nat} (hi : i < g.count) : i < 32 * g.size := by
  rw [size_eq]
  omega

theorem size_le : g.size ≤ 33554432 := by
  have hlt := g.count_lt
  rw [size_eq]
  omega

theorem address_toNat (i : Fin g.count) :
    (g.address i).toNat = Blocks.start g.storage.toNat g.blockSize.toNat i := by
  have hlt := g.count_lt
  have hend := g.end_lt
  have hi : Blocks.start g.storage.toNat g.blockSize.toNat i + g.blockSize.toNat
      ≤ g.storage.toNat + g.count * g.blockSize.toNat := Blocks.start_add_le i.isLt
  have hsize := g.blockSize_ge
  unfold Blocks.start at hi ⊢
  unfold address count at *
  have hindex : (UInt32.ofNat i).toNat = i := UInt32.toNat_ofNat_of_lt' (by
    change (i : Nat) < 4294967296
    omega)
  rw [UInt32.toNat_add, UInt32.toNat_mul, hindex]
  change (_ + _ % 4294967296) % 4294967296 = _
  rw [Nat.mod_eq_of_lt (a := ↑i * _) (by omega), Nat.mod_eq_of_lt (by omega)]

theorem address_injective {i j : Fin g.count} (h : g.address i = g.address j) : i = j := by
  have hnat := congrArg UInt32.toNat h
  rw [address_toNat, address_toNat] at hnat
  have hsize := g.blockSize_ge
  exact Fin.ext (Blocks.start_injective (by omega) hnat)

theorem address_ne_zero (i : Fin g.count) : g.address i ≠ 0 := by
  intro h
  have hnat := congrArg UInt32.toNat h
  have hstorage : g.storage.toNat ≠ 0 := fun h0 => g.storage_ne (UInt32.toNat_inj.mp h0)
  rw [address_toNat, Blocks.start] at hnat
  change _ = 0 at hnat
  omega

/-- Different words of the bitmap have different addresses. -/
theorem bitmapAddress_inj {v w : Nat} (hv : v < g.size) (hw : w < g.size)
    (h : bitmapAddress g.usedBitmap (UInt32.ofNat v) = bitmapAddress g.usedBitmap (UInt32.ofNat w)) :
    v = w := by
  have hsize := g.size_le
  have hmul : UInt32.ofNat v * 4 = UInt32.ofNat w * 4 := by
    unfold bitmapAddress at h
    grind
  have hnat := congrArg UInt32.toNat hmul
  rw [UInt32.toNat_mul, UInt32.toNat_mul, UInt32.toNat_ofNat_of_lt' (by change v < 4294967296; omega),
    UInt32.toNat_ofNat_of_lt' (by change w < 4294967296; omega)] at hnat
  change v * 4 % 4294967296 = w * 4 % 4294967296 at hnat
  omega

theorem words_write {memory : Memory} {v w : Nat} (word : UInt32) (hv : v < g.size)
    (hw : w < g.size) :
    g.words (memory.write (bitmapAddress g.usedBitmap (UInt32.ofNat v)) word) w
      = if w = v then word.toBitVec else g.words memory w := by
  unfold words Memory.write
  by_cases hvw : w = v
  · rw [if_pos hvw, hvw, if_pos rfl]
  · rw [if_neg hvw, if_neg fun heq => hvw (bitmapAddress_inj hw hv heq)]

variable {k : Pools} {used : Finset (Fin g.count)}

theorem Holds.test (h : g.Holds k used) {index : UInt32} (hi : index.toNat < g.count) :
    k.memory (bitmapAddress g.usedBitmap (index / 32)) &&& bitmapMask index = 0
      ↔ ⟨index.toNat, hi⟩ ∉ used := by
  have htest := h.bits.test (lt_bits hi)
  rw [← UInt32.toBitVec_inj, UInt32.toBitVec_and, bitmapMask_toBitVec, bitmapWord_eq]
  refine htest.trans ⟨fun hno hmem => hno ⟨hi, hmem⟩, ?_⟩
  rintro hno ⟨_, hmem⟩
  exact hno hmem

theorem Holds.set (h : g.Holds k used) {index : UInt32} (hi : index.toNat < g.count) :
    g.Holds
      { k with
        memory := k.memory.write (bitmapAddress g.usedBitmap (index / 32))
          (k.memory (bitmapAddress g.usedBitmap (index / 32)) ||| bitmapMask index) }
      (insert ⟨index.toNat, hi⟩ used) := by
  refine ⟨h.pool, ?_⟩
  rw [bitmapWord_eq]
  have hword := Bitmap.div_lt (lt_bits hi)
  have hset := h.bits.set (lt_bits hi)
    (fun j hj hne => (words_write _ hword hj).trans (if_neg hne))
    ((words_write (k.memory (bitmapAddress g.usedBitmap (UInt32.ofNat (index.toNat / 32)))
      ||| bitmapMask index) hword hword).trans (by
        rw [if_pos rfl, UInt32.toBitVec_or, bitmapMask_toBitVec]
        rfl))
  intro j hj
  rw [hset j hj]
  constructor
  · rintro (rfl | ⟨hlt, hmem⟩)
    · exact ⟨hi, Finset.mem_insert_self _ _⟩
    · exact ⟨hlt, Finset.mem_insert_of_mem hmem⟩
  · rintro ⟨hlt, hmem⟩
    rcases Finset.mem_insert.mp hmem with heq | hmem
    · exact Or.inl (Fin.mk.inj heq)
    · exact Or.inr ⟨hlt, hmem⟩

theorem Holds.clear (h : g.Holds k used) {index : UInt32} (hi : index.toNat < g.count) :
    g.Holds
      { k with
        memory := k.memory.write (bitmapAddress g.usedBitmap (index / 32))
          (k.memory (bitmapAddress g.usedBitmap (index / 32)) &&& ~~~bitmapMask index) }
      (used.erase ⟨index.toNat, hi⟩) := by
  refine ⟨h.pool, ?_⟩
  rw [bitmapWord_eq]
  have hword := Bitmap.div_lt (lt_bits hi)
  have hclear := h.bits.clear (lt_bits hi)
    (fun j hj hne => (words_write _ hword hj).trans (if_neg hne))
    ((words_write (k.memory (bitmapAddress g.usedBitmap (UInt32.ofNat (index.toNat / 32)))
      &&& ~~~bitmapMask index) hword hword).trans (by
        rw [if_pos rfl, UInt32.toBitVec_and, UInt32.toBitVec_not, bitmapMask_toBitVec]
        rfl))
  intro j hj
  rw [hclear j hj]
  constructor
  · rintro ⟨hne, hlt, hmem⟩
    exact ⟨hlt, Finset.mem_erase.mpr ⟨fun heq => hne (Fin.mk.inj heq), hmem⟩⟩
  · rintro ⟨hlt, hmem⟩
    obtain ⟨hne, hmem⟩ := Finset.mem_erase.mp hmem
    exact ⟨fun heq => hne (Fin.ext heq), hlt, hmem⟩

/-! ## Creation -/

theorem created_holds (g : PoolGeometry) (k : Pools) : g.Holds (g.created k) ∅ := by
  have hvalid : ¬(g.pool = 0 ∨ g.storage = 0 ∨ g.usedBitmap = 0 ∨ g.blockSize < 4
      ∨ g.blockCount = 0) := by
    have hsize := g.blockSize_ge
    have hcount := g.blockCount_pos
    rintro (h | h | h | h | h)
    · exact g.pool_ne h
    · exact g.storage_ne h
    · exact g.usedBitmap_ne h
    · rw [UInt32.lt_iff_toNat_lt] at h
      change _ < 4 at h
      omega
    · rw [h] at hcount
      exact absurd hcount (Nat.lt_irrefl 0)
  unfold created jrtMemoryPoolCreateStatic
  rw [if_neg hvalid]
  refine ⟨if_pos rfl, ?_⟩
  -- The loop clears the words it has visited.
  have hloop : ∀ (l : List Nat) (memory : Memory) (w : Nat), w < g.size →
      (∀ v ∈ l, v < g.size) → w ∈ l ∨ g.words memory w = 0#32 →
      g.words (l.foldl (fun memory index =>
        memory.write (bitmapAddress g.usedBitmap (UInt32.ofNat index)) 0) memory) w = 0#32 := by
    intro l
    induction l with
    | nil => exact fun memory w _ _ hw => hw.resolve_left List.not_mem_nil
    | cons v l ih =>
        intro memory w hw hl hzero
        refine ih _ w hw (fun u hu => hl u (List.mem_cons_of_mem v hu)) ?_
        rw [words_write _ (hl v List.mem_cons_self) hw]
        by_cases hwv : w = v
        · rw [if_pos hwv]
          exact Or.inr rfl
        · rw [if_neg hwv]
          exact hzero.imp_left fun hmem => (List.mem_cons.mp hmem).resolve_left hwv
  have hempty := Bitmap.represents_empty (g.words _) g.size fun w hw =>
    hloop (List.range g.size) k.memory w hw (fun v hv => List.mem_range.mp hv)
      (Or.inl (List.mem_range.mpr hw))
  intro j hj
  refine (hempty j hj).trans ⟨False.elim, ?_⟩
  rintro ⟨_, hmem⟩
  exact absurd hmem (Finset.notMem_empty _)

/-! ## Allocation -/

/-- From a block below which all are outstanding, the loop takes the first
one that is not, if there is one. -/
theorem Holds.allocateLoop (h : g.Holds k used) (fuel : Nat) (index : UInt32)
    (hfuel : index.toNat + fuel = g.count)
    (hbelow : ∀ i : Fin g.count, (i : Nat) < index.toNat → i ∈ used) :
    let r := JustRT.allocateLoop ⟨g.storage, g.usedBitmap, g.blockSize, g.blockCount⟩ fuel index
      k.memory
    (used = Finset.univ ∧ r = (0, k.memory))
      ∨ ∃ i, i ∉ used ∧ r.1 = g.address i ∧ g.Holds { k with memory := r.2 } (insert i used) := by
  induction fuel generalizing index with
  | zero =>
      refine Or.inl ⟨Finset.eq_univ_of_forall fun i => hbelow i ?_, rfl⟩
      have := i.isLt
      omega
  | succ fuel ih =>
      intro r
      have hi : index.toNat < g.count := by omega
      have hlt := g.count_lt
      simp only [r, JustRT.allocateLoop]
      by_cases hfree : k.memory (bitmapAddress g.usedBitmap (index / 32)) &&& bitmapMask index = 0
      · rw [if_pos hfree]
        refine Or.inr ⟨⟨index.toNat, hi⟩, (h.test hi).mp hfree, ?_, h.set hi⟩
        rw [address, UInt32.ofNat_toNat]
      · rw [if_neg hfree]
        have hsucc : (index + 1).toNat = index.toNat + 1 := by
          rw [UInt32.toNat_add]
          change (index.toNat + 1) % 4294967296 = _
          omega
        refine ih (index + 1) (by omega) fun i hlti => ?_
        by_cases heq : (i : Nat) = index.toNat
        · have hused : (⟨index.toNat, hi⟩ : Fin g.count) ∈ used := by
            by_contra hno
            exact hfree ((h.test hi).mpr hno)
          rw [show i = ⟨index.toNat, hi⟩ from Fin.ext heq]
          exact hused
        · exact hbelow i (by omega)

/-- An allocation takes a block that is not outstanding, or there is none. -/
theorem Holds.allocate (h : g.Holds k used) :
    (used = Finset.univ ∧ jrtMemoryPoolAllocate k g.pool = (0, k))
      ∨ ∃ i, i ∉ used ∧ (jrtMemoryPoolAllocate k g.pool).1 = g.address i
          ∧ g.Holds (jrtMemoryPoolAllocate k g.pool).2 (insert i used) := by
  simp only [jrtMemoryPoolAllocate, h.pool]
  rw [if_neg (by simp [g.pool_ne, g.storage_ne, g.usedBitmap_ne])]
  rcases h.allocateLoop g.count 0 (Nat.zero_add _)
    (fun i hi => absurd hi (Nat.not_lt_zero _)) with ⟨hall, hr⟩ | ⟨i, hi, hr, hholds⟩
  · change JustRT.allocateLoop _ g.blockCount.toNat 0 k.memory = _ at hr
    refine Or.inl ⟨hall, ?_⟩
    rw [hr]
  · exact Or.inr ⟨i, hi, hr, hholds⟩

/-! ## Free -/

theorem free_range (block : Ptr) :
    (block < g.storage ∨ block ≥ g.storage + g.blockSize * g.blockCount)
      ↔ ¬(g.storage.toNat ≤ block.toNat
        ∧ block.toNat < g.storage.toNat + g.count * g.blockSize.toNat) := by
  have hend := g.end_lt
  have hmul : (g.blockSize * g.blockCount).toNat = g.count * g.blockSize.toNat := by
    rw [UInt32.toNat_mul, Nat.mul_comm, count]
    exact Nat.mod_eq_of_lt (by omega)
  have hstop : (g.storage + g.blockSize * g.blockCount).toNat
      = g.storage.toNat + g.count * g.blockSize.toNat := by
    rw [UInt32.toNat_add, hmul, count]
    exact Nat.mod_eq_of_lt (by omega)
  rw [UInt32.lt_iff_toNat_lt, ge_iff_le, UInt32.le_iff_toNat_le, hstop]
  omega

/-- A free of the start of an outstanding block takes it back; any other one
changes nothing. -/
theorem Holds.free (h : g.Holds k used) (block : Ptr) :
    (∃ i ∈ used, block = g.address i ∧ (jrtMemoryPoolFree k g.pool block).1 = 1
        ∧ g.Holds (jrtMemoryPoolFree k g.pool block).2 (used.erase i))
      ∨ ((∀ i ∈ used, block ≠ g.address i) ∧ jrtMemoryPoolFree k g.pool block = (0, k)) := by
  have hsize := g.blockSize_ge
  have hsize_ne : g.blockSize ≠ 0 := fun h0 => by
    rw [h0] at hsize
    exact absurd hsize (by decide)
  -- A pointer that is no start of a block is refused.
  have hrefused : ¬(g.storage.toNat ≤ block.toNat
        ∧ block.toNat < g.storage.toNat + g.count * g.blockSize.toNat
        ∧ (block.toNat - g.storage.toNat) % g.blockSize.toNat = 0) →
      ∀ i ∈ used, block ≠ g.address i := by
    rintro hno i - rfl
    refine hno ((Blocks.exists_start_iff (by omega)).mp ⟨i, i.isLt, address_toNat i⟩)
  simp only [jrtMemoryPoolFree, h.pool]
  by_cases hnull : block = 0
  · rw [if_pos (Or.inr (Or.inl hnull))]
    exact Or.inr ⟨fun i _ heq => address_ne_zero i (heq.symm.trans hnull), rfl⟩
  rw [if_neg (by simp [g.pool_ne, g.storage_ne, g.usedBitmap_ne, hsize_ne, hnull])]
  by_cases hrange : block < g.storage ∨ block ≥ g.storage + g.blockSize * g.blockCount
  · rw [if_pos hrange]
    refine Or.inr ⟨hrefused fun hin => ?_, rfl⟩
    exact free_range block |>.mp hrange ⟨hin.1, hin.2.1⟩
  rw [if_neg hrange]
  obtain ⟨hle, hlt⟩ := not_not.mp (mt (free_range block).mpr hrange)
  have hoffset : (block - g.storage).toNat = block.toNat - g.storage.toNat :=
    UInt32.toNat_sub_of_le _ _ (UInt32.le_iff_toNat_le.mpr hle)
  by_cases hmod : (block - g.storage) % g.blockSize ≠ 0
  · rw [if_pos hmod]
    refine Or.inr ⟨hrefused fun hin => hmod ?_, rfl⟩
    apply UInt32.toNat_inj.mp
    rw [UInt32.toNat_mod, hoffset]
    exact hin.2.2
  rw [if_neg hmod]
  -- It is the start of the block its index names.
  have hzero : (block.toNat - g.storage.toNat) % g.blockSize.toNat = 0 := by
    have hnat := congrArg UInt32.toNat (not_not.mp hmod)
    rw [UInt32.toNat_mod, hoffset] at hnat
    exact hnat
  obtain ⟨i, hi, hblock⟩ := (Blocks.exists_start_iff (by omega)).mpr ⟨hle, hlt, hzero⟩
  have hindex : ((block - g.storage) / g.blockSize).toNat = i := by
    rw [UInt32.toNat_div, hoffset, hblock, Blocks.start, Nat.add_sub_cancel_left]
    exact Nat.mul_div_cancel i (by omega)
  have haddress : block = g.address ⟨i, hi⟩ := by
    apply UInt32.toNat_inj.mp
    rw [address_toNat, hblock]
  have hi' : ((block - g.storage) / g.blockSize).toNat < g.count := by rw [hindex]; exact hi
  have hfin : (⟨((block - g.storage) / g.blockSize).toNat, hi'⟩ : Fin g.count) = ⟨i, hi⟩ :=
    Fin.ext hindex
  by_cases hfree : k.memory (bitmapAddress g.usedBitmap ((block - g.storage) / g.blockSize / 32))
      &&& bitmapMask ((block - g.storage) / g.blockSize) = 0
  · rw [if_pos hfree]
    have hno := (h.test hi').mp hfree
    rw [hfin] at hno
    refine Or.inr ⟨fun j hj heq => hno ?_, rfl⟩
    rw [← address_injective (heq.symm.trans haddress)]
    exact hj
  · rw [if_neg hfree]
    have hclear := h.clear hi'
    rw [hfin] at hclear
    refine Or.inl ⟨⟨i, hi⟩, ?_, haddress, rfl, hclear⟩
    by_contra hno
    rw [← hfin] at hno
    exact hfree ((h.test hi').mpr hno)

end PoolGeometry

/-! ## Refinement -/

inductive PoolCall where
  | allocate
  | free (block : Ptr)
deriving DecidableEq

/-- A call on the pool: its result, and the state behind it. -/
def PoolCall.exec (pool : Ptr) (k : Pools) : PoolCall → UInt32 × Pools
  | .allocate => jrtMemoryPoolAllocate k pool
  | .free block => jrtMemoryPoolFree k pool block

/-- Make the calls one after the other: their results, and the state behind
them. -/
def runPool (pool : Ptr) (k : Pools) : List PoolCall → List UInt32 × Pools
  | [] => ([], k)
  | call :: calls =>
      let r := call.exec pool k
      let rest := runPool pool r.2 calls
      (r.1 :: rest.1, rest.2)

namespace PoolGeometry

variable {g : PoolGeometry}

/-- What a pool is for: a set of outstanding blocks. An allocation adds one
that is not outstanding and returns its start, or null if there is none; a
free removes the outstanding block that starts at the pointer, or refuses. -/
inductive Step (g : PoolGeometry) :
    Finset (Fin g.count) → PoolCall → UInt32 → Finset (Fin g.count) → Prop where
  | allocated {used : Finset (Fin g.count)} {i : Fin g.count} : i ∉ used →
      Step g used .allocate (g.address i) (insert i used)
  | exhausted : Step g Finset.univ .allocate 0 Finset.univ
  | freed {used : Finset (Fin g.count)} {i : Fin g.count} : i ∈ used →
      Step g used (.free (g.address i)) 1 (used.erase i)
  | refused {used : Finset (Fin g.count)} {block : Ptr} : (∀ i ∈ used, block ≠ g.address i) →
      Step g used (.free block) 0 used

/-- A sequence of calls with their results. -/
inductive Steps (g : PoolGeometry) :
    Finset (Fin g.count) → List PoolCall → List UInt32 → Finset (Fin g.count) → Prop where
  | nil {used : Finset (Fin g.count)} : Steps g used [] [] used
  | cons {used used₁ used₂ : Finset (Fin g.count)} {call : PoolCall} {calls : List PoolCall}
      {result : UInt32} {results : List UInt32} : g.Step used call result used₁ →
      Steps g used₁ calls results used₂ → Steps g used (call :: calls) (result :: results) used₂

theorem Holds.exec {k : Pools} {used : Finset (Fin g.count)} (h : g.Holds k used)
    (call : PoolCall) :
    ∃ used', g.Step used call (call.exec g.pool k).1 used'
      ∧ g.Holds (call.exec g.pool k).2 used' := by
  cases call with
  | allocate =>
      rcases h.allocate with ⟨rfl, hr⟩ | ⟨i, hi, hr, hholds⟩
      · refine ⟨Finset.univ, ?_, ?_⟩
        · rw [PoolCall.exec, hr]
          exact .exhausted
        · rw [PoolCall.exec, hr]
          exact h
      · refine ⟨insert i used, ?_, hholds⟩
        rw [PoolCall.exec, hr]
        exact .allocated hi
  | free block =>
      rcases h.free block with ⟨i, hi, rfl, hr, hholds⟩ | ⟨hno, hr⟩
      · refine ⟨used.erase i, ?_, hholds⟩
        rw [PoolCall.exec, hr]
        exact .freed hi
      · refine ⟨used, ?_, ?_⟩
        · rw [PoolCall.exec, hr]
          exact .refused hno
        · rw [PoolCall.exec, hr]
          exact h

theorem Holds.run {k : Pools} {used : Finset (Fin g.count)} (h : g.Holds k used)
    (calls : List PoolCall) :
    ∃ used', g.Steps used calls (runPool g.pool k calls).1 used'
      ∧ g.Holds (runPool g.pool k calls).2 used' := by
  induction calls generalizing k used with
  | nil => exact ⟨used, .nil, h⟩
  | cons call calls ih =>
      obtain ⟨used₁, hstep, h₁⟩ := h.exec call
      obtain ⟨used₂, hsteps, h₂⟩ := ih h₁
      exact ⟨used₂, .cons hstep hsteps, h₂⟩

/-- A block's bytes are those of the storage from its start on. -/
theorem address_range (i : Fin g.count) : g.storage.toNat ≤ (g.address i).toNat
    ∧ (g.address i).toNat + g.blockSize.toNat
      ≤ g.storage.toNat + g.count * g.blockSize.toNat := by
  rw [address_toNat]
  exact ⟨Nat.le_add_right _ _, Blocks.start_add_le i.isLt⟩

theorem address_disjoint {i j : Fin g.count} (hij : i ≠ j) :
    (g.address i).toNat + g.blockSize.toNat ≤ (g.address j).toNat
      ∨ (g.address j).toNat + g.blockSize.toNat ≤ (g.address i).toNat := by
  rw [address_toNat, address_toNat]
  exact Blocks.disjoint fun heq => hij (Fin.ext heq)

end PoolGeometry

/-- A pool over valid arguments, behind any sequence of calls: the results
are those of a set of outstanding blocks that was empty at first, blocks lie
inside the storage and apart, and no bit beyond the last block is set. An
allocation returns null exactly if every block is outstanding, and otherwise
the start of one that is not; a free returns 1 exactly at the start of an
outstanding block, and otherwise 0 with nothing changed. -/
theorem memory_pool_refines_blocks (g : PoolGeometry) (k : Pools) (calls : List PoolCall) :
    ∃ used : Finset (Fin g.count),
      g.Steps ∅ calls (runPool g.pool (g.created k) calls).1 used
        ∧ (∀ i : Fin g.count, g.storage.toNat ≤ (g.address i).toNat
          ∧ (g.address i).toNat + g.blockSize.toNat
            ≤ g.storage.toNat + g.blockCount.toNat * g.blockSize.toNat)
        ∧ (∀ i j : Fin g.count, i ≠ j →
          (g.address i).toNat + g.blockSize.toNat ≤ (g.address j).toNat
            ∨ (g.address j).toNat + g.blockSize.toNat ≤ (g.address i).toNat)
        ∧ (∀ i, g.blockCount.toNat ≤ i → i < 32 * g.size →
          Bitmap.mem (g.words (runPool g.pool (g.created k) calls).2.memory) i = false)
        ∧ ((jrtMemoryPoolAllocate (runPool g.pool (g.created k) calls).2 g.pool).1 = 0
          ↔ used.card = g.blockCount.toNat)
        ∧ ((jrtMemoryPoolAllocate (runPool g.pool (g.created k) calls).2 g.pool).1 ≠ 0 →
          ∃ i ∉ used, (jrtMemoryPoolAllocate (runPool g.pool (g.created k) calls).2 g.pool).1
            = g.address i)
        ∧ ∀ block, ((jrtMemoryPoolFree (runPool g.pool (g.created k) calls).2 g.pool block).1 = 1
            ↔ ∃ i ∈ used, block = g.address i)
          ∧ ((¬∃ i ∈ used, block = g.address i) →
            jrtMemoryPoolFree (runPool g.pool (g.created k) calls).2 g.pool block
              = (0, (runPool g.pool (g.created k) calls).2)) := by
  obtain ⟨used, hsteps, h⟩ := (PoolGeometry.created_holds g k).run calls
  generalize runPool g.pool (g.created k) calls = r at hsteps h ⊢
  refine ⟨used, hsteps, PoolGeometry.address_range, fun i j => PoolGeometry.address_disjoint, ?_,
    ?_, ?_, ?_⟩
  · intro i hle hi
    rw [← Bool.not_eq_true, h.bits i hi]
    rintro ⟨hlt, -⟩
    exact absurd hlt (Nat.not_lt.mpr hle)
  · have hcard : used = Finset.univ ↔ used.card = g.blockCount.toNat := by
      rw [← Finset.card_eq_iff_eq_univ, Fintype.card_fin]
      rfl
    rw [← hcard]
    rcases h.allocate with ⟨hall, hr⟩ | ⟨i, hi, hr, -⟩
    · rw [hr]
      exact ⟨fun _ => hall, fun _ => rfl⟩
    · rw [hr]
      refine ⟨fun hzero => absurd hzero (PoolGeometry.address_ne_zero i), fun hall => ?_⟩
      rw [hall] at hi
      exact absurd (Finset.mem_univ i) hi
  · intro hne
    rcases h.allocate with ⟨-, hr⟩ | ⟨i, hi, hr, -⟩
    · rw [hr] at hne
      exact absurd rfl hne
    · exact ⟨i, hi, hr⟩
  · intro block
    rcases h.free block with ⟨i, hi, hblock, hr, -⟩ | ⟨hno, hr⟩
    · exact ⟨⟨fun _ => ⟨i, hi, hblock⟩, fun _ => hr⟩, fun hnone => absurd ⟨i, hi, hblock⟩ hnone⟩
    · rw [hr]
      refine ⟨⟨fun h0 => absurd h0 (show (0 : UInt32) ≠ 1 by decide), ?_⟩, fun _ => rfl⟩
      rintro ⟨i, hi, hblock⟩
      exact absurd hblock (hno i hi)

/-- A pool of 33 blocks of 12 bytes. -/
def PoolGeometry.sample : PoolGeometry where
  pool := 16
  storage := 0x20400004
  blockSize := 12
  blockCount := 33
  usedBitmap := 0x20401000
  pool_ne := by decide
  storage_ne := by decide
  usedBitmap_ne := by decide
  blockSize_ge := by decide
  blockCount_pos := by decide
  end_lt := by decide

/-- Memory is not zero where the pool is created; a pointer into a block is
refused, and a freed block is handed out again. -/
example : (runPool PoolGeometry.sample.pool
      (PoolGeometry.sample.created ⟨fun _ => ⟨0, 0, 0, 0⟩, fun _ => 0xFFFFFFFF⟩)
      [.allocate, .allocate, .free 0x20400014, .free 0x20400004, .free 0x20400004,
        .allocate]).1 = [0x20400004, 0x20400010, 0, 1, 0, 0x20400004] := by
  decide +kernel

end JustRT
