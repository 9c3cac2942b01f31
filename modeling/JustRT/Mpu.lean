import JustRT.Types

/-!
# The memory protection unit

The region setters of `port_cm7.c`. A region is what its base and
attribute registers hold; `MPU_RNR` only selects which pair a store
reaches and is not kept.
-/

namespace JustRT

/-! ## Register values -/

def mpuCtrlEnable : UInt32 := 1
def mpuCtrlPrivdefena : UInt32 := 4
def mpuRasrEnable : UInt32 := 1
def mpuRasrXn : UInt32 := (1 : UInt32) <<< 28
def mpuRasrSize32Bytes : UInt32 := (4 : UInt32) <<< 1
def mpuRasrApPrivRwUnprivNone : UInt32 := (1 : UInt32) <<< 24
def mpuRasrApPrivRoUnprivNone : UInt32 := (5 : UInt32) <<< 24
def mpuRasrApReadWriteBoth : UInt32 := (3 : UInt32) <<< 24
def mpuRasrApReadOnlyBoth : UInt32 := (6 : UInt32) <<< 24
def mpuRasrTexNormal : UInt32 := (1 : UInt32) <<< 19
def mpuRasrCacheable : UInt32 := (1 : UInt32) <<< 17
def mpuRasrBufferable : UInt32 := (1 : UInt32) <<< 16
def mpuRegionCount : Nat := 16
def mpuFlashRegion : Nat := 0
def mpuSramRegion : Nat := 1
def mpuUnprivilegedFunctionsRegion : Nat := 2
def mpuUnprivilegedSvcRegion : Nat := 3
def mpuUnprivilegedRodataRegion : Nat := 4
def mpuUnprivilegedDataRegion : Nat := 5
def mpuTaskPrivateDataRegion : Nat := 14
def mpuStackGuardRegion : Nat := 15

/-- The bounds the linker script defines. -/
structure LinkerSections where
  unprivilegedFunctionsStart : UInt32
  unprivilegedFunctionsEnd : UInt32
  unprivilegedSvcStart : UInt32
  unprivilegedSvcEnd : UInt32
  unprivilegedRodataStart : UInt32
  unprivilegedRodataEnd : UInt32
  unprivilegedTaskDataStart : UInt32
  unprivilegedTaskDataEnd : UInt32
  taskPrivateDataStart : UInt32
  taskPrivateDataEnd : UInt32
deriving Repr, DecidableEq

def Mpu.setRegion (m : Mpu) (region : Nat) (rbar rasr : UInt32) : Mpu :=
  { m with region := fun r => if r = region then (rbar, rasr) else m.region r }

/-! ## Size loops

A size that has been shifted out of its 32 bits is zero and stays zero,
so a loop that has not ended after 33 iterations never ends. -/

/-- `while (size < limit)`: double the size, count its encoding up. -/
def growSizeLoop (limit : UInt32) : Nat → UInt32 → UInt32 → Exec (UInt32 × UInt32)
  | 0, _, _ => .error .hang
  | fuel + 1, size, encoding =>
      if size < limit then growSizeLoop limit fuel (size <<< 1) (encoding + 1)
      else .ok (size, encoding)

/-- The second loop of `configure_region_range`: grow the region until it
reaches `end`, moving the base down to the size. -/
def growRangeLoop (start stop : UInt32) :
    Nat → UInt32 → UInt32 → UInt32 → Exec (UInt32 × UInt32 × UInt32)
  | 0, _, _, _ => .error .hang
  | fuel + 1, base, size, encoding =>
      if base + size < stop then
        let size := size <<< 1
        growRangeLoop start stop fuel (start &&& ~~~(size - 1)) size (encoding + 1)
      else .ok (base, size, encoding)

def configureRegionRange (m : Mpu) (region : Nat) (start stop attributes : UInt32) :
    Exec Mpu := do
  if stop ≤ start then
    return m.setRegion region (m.region region).1 0
  let (size, encoding) ← growSizeLoop (stop - start) 34 32 4
  let (base, _, encoding) ←
    growRangeLoop start stop 34 (start &&& ~~~(size - 1)) size encoding
  return m.setRegion region base (attributes ||| (encoding <<< 1) ||| mpuRasrEnable)

def configureMemoryRegions (m : Mpu) (l : LinkerSections) : Exec Mpu := do
  let privilegedSram := mpuRasrApPrivRwUnprivNone ||| mpuRasrXn ||| mpuRasrTexNormal
    ||| mpuRasrCacheable ||| mpuRasrBufferable
  let unprivilegedCode := mpuRasrApReadOnlyBoth ||| mpuRasrCacheable
  let unprivilegedData := mpuRasrApReadWriteBoth ||| mpuRasrXn ||| mpuRasrTexNormal
    ||| mpuRasrCacheable ||| mpuRasrBufferable
  let m ← configureRegionRange m mpuFlashRegion 0x00400000 0x00600000
    (mpuRasrApPrivRoUnprivNone ||| mpuRasrCacheable)
  let m ← configureRegionRange m mpuSramRegion 0x20400000 0x20420000 privilegedSram
  let m ← configureRegionRange m mpuUnprivilegedFunctionsRegion
    l.unprivilegedFunctionsStart l.unprivilegedFunctionsEnd unprivilegedCode
  let m ← configureRegionRange m mpuUnprivilegedSvcRegion
    l.unprivilegedSvcStart l.unprivilegedSvcEnd unprivilegedCode
  let m ← configureRegionRange m mpuUnprivilegedRodataRegion
    l.unprivilegedRodataStart l.unprivilegedRodataEnd
    (mpuRasrApReadOnlyBoth ||| mpuRasrXn ||| mpuRasrCacheable)
  configureRegionRange m mpuUnprivilegedDataRegion
    l.unprivilegedTaskDataStart l.unprivilegedTaskDataEnd unprivilegedData

/-! ## The dynamic regions -/

/-- The register stores of `arch_set_task_private_data`. -/
def storePrivateRegion (m : Mpu) (base privateDataSize : UInt32) : Exec Mpu :=
  if privateDataSize = 0 then return m.setRegion mpuTaskPrivateDataRegion 0 0
  else do
    let (_, encoding) ← growSizeLoop privateDataSize 34 32 4
    return m.setRegion mpuTaskPrivateDataRegion base
      (mpuRasrApReadWriteBoth ||| mpuRasrXn ||| mpuRasrTexNormal ||| mpuRasrCacheable
        ||| mpuRasrBufferable ||| (encoding <<< 1) ||| mpuRasrEnable)

def archSetTaskPrivateData (m : Mpu) (base privateDataSize : UInt32) : Exec Mpu := do
  if m.gMpuPrivateDataBase = base ∧ m.gMpuPrivateDataSize = privateDataSize then
    return m
  let m ← if m.hasMpu then storePrivateRegion m base privateDataSize else pure m
  return { m with
    gMpuPrivateDataBase := base
    gMpuPrivateDataSize := privateDataSize
    gMpuPrivateDataUpdates := m.gMpuPrivateDataUpdates + 1 }

def archSetTaskStackGuard (m : Mpu) (base : UInt32) : Mpu :=
  if m.gMpuStackGuardBase = base then m
  else
    let m := if m.hasMpu then
        m.setRegion mpuStackGuardRegion base (mpuRasrXn ||| mpuRasrSize32Bytes ||| mpuRasrEnable)
      else m
    { m with
      gMpuStackGuardBase := base
      gMpuStackGuardUpdates := m.gMpuStackGuardUpdates + 1 }

def archConfigureMpu (m : Mpu) (l : LinkerSections) (guardAddress privateDataBase
    privateDataSize : UInt32) : Exec Mpu := do
  let m ← if m.hasMpu then
      configureMemoryRegions
        { m with
          ctrl := 0
          region := fun r => if r < mpuRegionCount then ((m.region r).1, 0) else m.region r } l
    else pure m
  let m := { m with
    gMpuStackGuardBase := 0
    gMpuStackGuardUpdates := 0
    gMpuPrivateDataBase := 0
    gMpuPrivateDataSize := 0
    gMpuPrivateDataUpdates := 0 }
  let m ← archSetTaskPrivateData m privateDataBase privateDataSize
  let m := archSetTaskStackGuard m guardAddress
  return if m.hasMpu then { m with ctrl := mpuCtrlEnable ||| mpuCtrlPrivdefena } else m

end JustRT
