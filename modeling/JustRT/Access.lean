import JustRT.Context

/-!
# What code may touch

The architecture decides an access to memory by the enabled region of the
highest number that covers the address, and by the default map where no
region does, for privileged code only. The port programs the attributes of
each region with its bounds; in every reachable state a region either has
the attributes the port gives it or is off. Together with what the regions
cover, this says for every address what unprivileged code may read, write
and execute, and so which stores can have changed what is there.

The first half is the map: `Mpu.Attributed` is kept by every setter, the
region that decides has the attributes of its row in `portAttributes`, and
`access_exact` reads the map off that list, from the guard down to the
background. The second half is about runs of the machine: a task stores
what the unit lets it, the switch stores registers on stacks, and
`memory_integrity` says who can have changed a word. The private bus has no
part in either, since no region applies there.
-/

namespace JustRT

/-! ## The unit -/

inductive Access where
  | read
  | write
  | execute
deriving Repr, DecidableEq

/-- The half of an attribute register with the attributes proper. -/
def upperHalf (rasr : UInt32) : Nat := rasr.toNat / 2 ^ 16

/-- Who may read, or write, under a value of the access field. -/
def fieldAllows (privileged write : Bool) : Nat → Bool
  | 1 => privileged
  | 2 => privileged || !write
  | 3 => true
  | 5 => privileged && !write
  | 6 | 7 => !write
  | _ => false

/-- The access field is in bits 24 to 26, and bit 28 forbids execution. -/
def attributesAllow (upper : Nat) (privileged : Bool) : Access → Bool
  | .read => fieldAllows privileged false (upper / 2 ^ 8 % 8)
  | .write => fieldAllows privileged true (upper / 2 ^ 8 % 8)
  | .execute => fieldAllows privileged false (upper / 2 ^ 8 % 8) && upper / 2 ^ 12 % 2 == 0

/-- The private peripheral bus, with the registers of the unit itself. -/
def OnPrivateBus (x : UInt32) : Prop := 0xE0000000 ≤ x ∧ x < 0xE0100000

instance (x : UInt32) : Decidable (OnPrivateBus x) := inferInstanceAs (Decidable (_ ∧ _))

/-- The default map: the bus is for privileged code, and there is no code in
the device and system ranges. -/
def defaultAllows (privileged : Bool) (x : UInt32) : Access → Bool
  | .execute => decide (x < 0x40000000 ∨ 0x60000000 ≤ x ∧ x < 0xA0000000)
  | _ => privileged || !decide (OnPrivateBus x)

/-- The region that decides over an address. -/
def Mpu.deciding (m : Mpu) (x : UInt32) : Option Nat :=
  (List.range mpuRegionCount).reverse.find? fun r => decide (RegionCovers (m.region r) x)

def Mpu.allows (m : Mpu) (privileged : Bool) (access : Access) (x : UInt32) : Bool :=
  if m.ctrl &&& mpuCtrlEnable = 0 ∨ OnPrivateBus x then defaultAllows privileged x access
  else
    match m.deciding x with
    | some r => attributesAllow (upperHalf (m.region r).2) privileged access
    | none => m.ctrl &&& mpuCtrlPrivdefena != 0 && (privileged && defaultAllows privileged x access)

theorem deciding_eq_some_iff {m : Mpu} {x : UInt32} {r : Nat} : m.deciding x = some r
    ↔ r < mpuRegionCount ∧ RegionCovers (m.region r) x
      ∧ ∀ i, r < i → i < mpuRegionCount → ¬RegionCovers (m.region i) x := by
  rw [Mpu.deciding, Scan.find?_reverse_range_eq_some_iff]
  simp only [decide_eq_true_eq, decide_eq_false_iff_not]

theorem deciding_eq_none {m : Mpu} {x : UInt32}
    (h : ∀ i < mpuRegionCount, ¬RegionCovers (m.region i) x) : m.deciding x = none := by
  rw [Option.eq_none_iff_forall_ne_some]
  intro r hr
  obtain ⟨hlt, hcovers, -⟩ := deciding_eq_some_iff.mp hr
  exact h r hlt hcovers

/-! ## The attributes the port stores -/

/-- The regions the port uses, and the attributes it gives them. -/
def portAttributes : List (Nat × UInt32) :=
  [(mpuFlashRegion, mpuRasrApPrivRoUnprivNone ||| mpuRasrCacheable),
    (mpuSramRegion, mpuRasrApPrivRwUnprivNone ||| mpuRasrXn ||| mpuRasrTexNormal
      ||| mpuRasrCacheable ||| mpuRasrBufferable),
    (mpuUnprivilegedFunctionsRegion, mpuRasrApReadOnlyBoth ||| mpuRasrCacheable),
    (mpuUnprivilegedSvcRegion, mpuRasrApReadOnlyBoth ||| mpuRasrCacheable),
    (mpuUnprivilegedRodataRegion, mpuRasrApReadOnlyBoth ||| mpuRasrXn ||| mpuRasrCacheable),
    (mpuUnprivilegedDataRegion, mpuRasrApReadWriteBoth ||| mpuRasrXn ||| mpuRasrTexNormal
      ||| mpuRasrCacheable ||| mpuRasrBufferable),
    (mpuTaskPrivateDataRegion, mpuRasrApReadWriteBoth ||| mpuRasrXn ||| mpuRasrTexNormal
      ||| mpuRasrCacheable ||| mpuRasrBufferable),
    (mpuStackGuardRegion, mpuRasrXn)]

/-- The region is off, or has the attributes the port gives it. -/
def HasAttributes (region : Nat) (rasr : UInt32) : Prop :=
  rasr = 0 ∨ ∃ attributes, (region, attributes) ∈ portAttributes
    ∧ upperHalf rasr = upperHalf attributes

/-- Every region is off, or has the attributes the port gives it. -/
def Mpu.Attributed (m : Mpu) : Prop := ∀ r < mpuRegionCount, HasAttributes r (m.region r).2

section Attributes

variable {m m' : Mpu} {region : Nat} {attributes : UInt32}

theorem isAttributes_of_mem (hrow : (region, attributes) ∈ portAttributes) :
    IsAttributes attributes := by
  have hall : ∀ row ∈ portAttributes, row.2 &&& 0xFFFF = 0 := by decide
  exact hall _ hrow

theorem hasAttributes_store {size encoding : UInt32} {j : Nat}
    (hrow : (region, attributes) ∈ portAttributes) (henc : Encodes size encoding j) :
    HasAttributes region (attributes ||| (encoding <<< 1) ||| mpuRasrEnable) := by
  refine Or.inr ⟨attributes, hrow, ?_⟩
  have hattr := isAttributes_of_mem hrow
  have heq := henc.encoding_eq
  have hle := henc.le_31
  rw [upperHalf, toNat_rasr hattr henc, upperHalf]
  omega

theorem Mpu.Attributed.setRegion (h : m.Attributed) {rbar rasr : UInt32}
    (hrasr : HasAttributes region rasr) : (m.setRegion region rbar rasr).Attributed := by
  intro r hr
  by_cases hregion : r = region
  · subst hregion
    rw [Mpu.setRegion_self]
    exact hrasr
  · rw [Mpu.setRegion_of_ne _ _ _ hregion]
    exact h r hr

theorem Mpu.Attributed.configureRegionRange (h : m.Attributed) {start stop : UInt32}
    (hrow : (region, attributes) ∈ portAttributes) (hstop : stop.toNat ≤ 2 ^ 31)
    (hrun : configureRegionRange m region start stop attributes = .ok m') : m'.Attributed := by
  by_cases hlt : start < stop
  · obtain ⟨grown, encoding₀, base, size, encoding, k, hsize, hrange, hk, -⟩ :=
      regionLoops_spec hlt hstop
    rw [configureRegionRange_eq m region attributes hlt hsize hrange] at hrun
    obtain rfl := Except.ok.inj hrun
    exact h.setRegion (hasAttributes_store hrow hk)
  · rw [JustRT.configureRegionRange, if_pos (UInt32.not_lt.mp hlt)] at hrun
    obtain rfl := Except.ok.inj hrun
    exact h.setRegion (Or.inl rfl)

theorem Mpu.Attributed.configureMemoryRegions (h : m.Attributed) {l : LinkerSections}
    (hl : l.InLowerHalf) (hrun : configureMemoryRegions m l = .ok m') : m'.Attributed := by
  simp only [JustRT.configureMemoryRegions, exec_bind_eq_ok] at hrun
  obtain ⟨m₀, h₀, m₁, h₁, m₂, h₂, m₃, h₃, m₄, h₄, h₅⟩ := hrun
  have hflash : (0x00600000 : UInt32).toNat ≤ 2 ^ 31 := by decide
  have hsram : (0x20420000 : UInt32).toNat ≤ 2 ^ 31 := by decide
  have hm₀ := h.configureRegionRange (by simp [portAttributes]) hflash h₀
  have hm₁ := hm₀.configureRegionRange (by simp [portAttributes]) hsram h₁
  have hm₂ := hm₁.configureRegionRange (by simp [portAttributes]) hl.functions h₂
  have hm₃ := hm₂.configureRegionRange (by simp [portAttributes]) hl.svc h₃
  have hm₄ := hm₃.configureRegionRange (by simp [portAttributes]) hl.rodata h₄
  exact hm₄.configureRegionRange (by simp [portAttributes]) hl.taskData h₅

theorem Mpu.Attributed.storePrivateRegion (h : m.Attributed) {base size : UInt32}
    (hmap : Mappable base size) (hrun : storePrivateRegion m base size = .ok m') :
    m'.Attributed := by
  rw [JustRT.storePrivateRegion] at hrun
  split at hrun
  · obtain rfl := Except.ok.inj hrun
    exact h.setRegion (Or.inl rfl)
  · next hne =>
      obtain ⟨k, -, hk, -⟩ := hmap.resolve_left hne
      have hlt : 2 ^ k < 2 ^ 32 := hk ▸ size.toNat_lt
      have hk31 : k ≤ 31 := Nat.le_of_lt_succ ((Nat.pow_lt_pow_iff_right Nat.one_lt_two).mp hlt)
      have hle : size.toNat ≤ 2 ^ 31 := hk ▸ Nat.pow_le_pow_right Nat.zero_lt_two hk31
      obtain ⟨size', encoding, j, hgrow, henc, -⟩ :=
        growSizeLoop_spec hle 34 Encodes.first (by decide)
      simp only [hgrow, exec_bind_eq_ok] at hrun
      obtain ⟨r, hr, hrun⟩ := hrun
      obtain rfl := Except.ok.inj hr
      obtain rfl := Except.ok.inj hrun
      exact h.setRegion (hasAttributes_store (by simp [portAttributes]) henc)

theorem Mpu.Attributed.archSetTaskPrivateData (h : m.Attributed) {base size : UInt32}
    (hmap : Mappable base size) (hrun : archSetTaskPrivateData m base size = .ok m') :
    m'.Attributed := by
  rw [JustRT.archSetTaskPrivateData] at hrun
  split at hrun
  · obtain rfl := Except.ok.inj hrun
    exact h
  · split at hrun
    · rw [exec_bind_eq_ok] at hrun
      obtain ⟨m₂, hstore, hrun⟩ := hrun
      obtain rfl := Except.ok.inj hrun
      have hstored := h.storePrivateRegion hmap hstore
      exact hstored
    · obtain rfl := Except.ok.inj hrun
      exact h

theorem Mpu.Attributed.archSetTaskStackGuard (h : m.Attributed) (base : UInt32) :
    (archSetTaskStackGuard m base).Attributed := by
  rw [JustRT.archSetTaskStackGuard]
  split
  · exact h
  · split
    · refine h.setRegion (Or.inr ⟨mpuRasrXn, by simp [portAttributes], ?_⟩)
      decide
    · exact h

theorem archConfigureMpu_attributed {l : LinkerSections} (hl : l.InLowerHalf)
    {guard base size : UInt32} (hmap : Mappable base size) (hhas : m.hasMpu = true)
    (hrun : archConfigureMpu m l guard base size = .ok m') : m'.Attributed := by
  simp only [archConfigureMpu, hhas, if_true, exec_bind_eq_ok] at hrun
  obtain ⟨m₁, hstatic, m₂, hdata, hrun⟩ := hrun
  obtain rfl := Except.ok.inj hrun
  have hoff : Mpu.Attributed { m with
      ctrl := 0
      region := fun r => if r < mpuRegionCount then ((m.region r).1, 0) else m.region r } := by
    intro r hr
    exact Or.inl (by simp [hr])
  have hm₁ := hoff.configureMemoryRegions hl (hhas ▸ hstatic)
  have hm₂ := (Mpu.Attributed.archSetTaskPrivateData (m := { m₁ with
    gMpuStackGuardBase := 0
    gMpuStackGuardUpdates := 0
    gMpuPrivateDataBase := 0
    gMpuPrivateDataSize := 0
    gMpuPrivateDataUpdates := 0 }) hm₁ hmap hdata)
  have hlast := hm₂.archSetTaskStackGuard guard
  split
  · exact hlast
  · exact hlast

end Attributes

/-! ## Who decides -/

section Zones

variable {m : Mpu} {x : UInt32} {r : Nat} {attributes : UInt32}

/-- A region that covers an address has attributes of the port. -/
theorem Mpu.Attributed.of_covers (h : m.Attributed) (hr : r < mpuRegionCount)
    (hcovers : RegionCovers (m.region r) x) :
    ∃ attributes, (r, attributes) ∈ portAttributes
      ∧ upperHalf (m.region r).2 = upperHalf attributes := by
  refine (h r hr).resolve_left fun hoff => hcovers.1 ?_
  rw [hoff]
  exact UInt32.zero_and

/-- The attributes that decide over an address: those of the region of the
highest number among the ones that cover it. -/
def Mpu.zone (m : Mpu) (x : UInt32) : Option UInt32 :=
  (portAttributes.reverse.find? fun row => decide (RegionCovers (m.region row.1) x)).map Prod.snd

/-- What the deciding attributes let through: without any, the default map
decides for privileged code. -/
def zoneAllows (privileged : Bool) (access : Access) (x : UInt32) : Option UInt32 → Bool
  | some attributes => attributesAllow (upperHalf attributes) privileged access
  | none => privileged && defaultAllows privileged x access

/-- The rows are in the order of their regions, all of which there are. -/
theorem portAttributes_sorted : portAttributes.reverse.Pairwise (fun row row' => row'.1 < row.1)
    ∧ ∀ row ∈ portAttributes, row.1 < mpuRegionCount := by
  decide

/-- The region that decides has the attributes of the zone. -/
theorem Mpu.Attributed.deciding_eq (h : m.Attributed) (x : UInt32) :
    ((m.deciding x).map fun r => upperHalf (m.region r).2) = (m.zone x).map upperHalf := by
  obtain ⟨hsorted, hlt⟩ := portAttributes_sorted
  rw [Mpu.zone]
  cases hfind : portAttributes.reverse.find?
      fun row => decide (RegionCovers (m.region row.1) x) with
  | none =>
      have hnone : m.deciding x = none := deciding_eq_none fun i hi hcovers => by
        obtain ⟨attributes, hrow, -⟩ := h.of_covers hi hcovers
        have hnot := List.find?_eq_none.mp hfind _ (List.mem_reverse.mpr hrow)
        exact hnot (decide_eq_true hcovers)
      rw [hnone]
      rfl
  | some row =>
      obtain ⟨hcovers, later, earlier, hsplit, hlater⟩ := List.find?_eq_some_iff_append.mp hfind
      rw [hsplit] at hsorted
      obtain ⟨-, hbehind, hcross⟩ := List.pairwise_append.mp hsorted
      have hmem : row ∈ portAttributes := by
        rw [← List.mem_reverse, hsplit]
        simp
      -- A row of the same region or of a higher one is this one, or ahead of it.
      have hahead : ∀ row' ∈ portAttributes, row.1 ≤ row'.1 → row' = row ∨ row' ∈ later := by
        intro row' hrow' hle
        rw [← List.mem_reverse, hsplit, List.mem_append, List.mem_cons] at hrow'
        rcases hrow' with hin | heq | hin
        · exact Or.inr hin
        · exact Or.inl heq
        · exact absurd ((List.pairwise_cons.mp hbehind).1 row' hin) (Nat.not_lt.mpr hle)
      have hdecides : m.deciding x = some row.1 := deciding_eq_some_iff.mpr
        ⟨hlt row hmem, of_decide_eq_true hcovers, fun i hi hcount hcovers' => by
          obtain ⟨attributes, hrow, -⟩ := h.of_covers hcount hcovers'
          rcases hahead _ hrow (Nat.le_of_lt hi) with heq | hin
          · rw [← heq] at hi
            exact Nat.lt_irrefl _ hi
          · have hnot := hlater _ hin
            rw [decide_eq_true hcovers'] at hnot
            cases hnot⟩
      obtain ⟨attributes, hrow, hupper⟩ := h.of_covers (hlt row hmem) (of_decide_eq_true hcovers)
      rcases hahead _ hrow (Nat.le_refl _) with heq | hin
      · rw [hdecides, ← heq]
        exact congrArg some hupper
      · exact absurd (hcross _ hin row List.mem_cons_self) (Nat.lt_irrefl _)

/-- What an enabled unit lets through off the bus is up to the zone. -/
theorem Mpu.Attributed.allows_eq (h : m.Attributed)
    (hctrl : m.ctrl = mpuCtrlEnable ||| mpuCtrlPrivdefena) (hx : ¬OnPrivateBus x)
    (privileged : Bool) (access : Access) :
    m.allows privileged access x = zoneAllows privileged access x (m.zone x) := by
  have henabled : ¬(m.ctrl &&& mpuCtrlEnable = 0 ∨ OnPrivateBus x) := by
    rw [hctrl]
    exact not_or.mpr ⟨by decide, hx⟩
  have hdefault : (m.ctrl &&& mpuCtrlPrivdefena != 0) = true := by
    rw [hctrl]
    decide
  have hdecides := h.deciding_eq x
  rw [Mpu.allows, if_neg henabled]
  cases hregion : m.deciding x with
  | none =>
      rw [hregion] at hdecides
      cases hzone : m.zone x with
      | none => simp only [hdefault, Bool.true_and, zoneAllows]
      | some attributes =>
          rw [hzone] at hdecides
          cases hdecides
  | some r =>
      rw [hregion] at hdecides
      cases hzone : m.zone x with
      | none =>
          rw [hzone] at hdecides
          cases hdecides
      | some attributes =>
          rw [hzone] at hdecides
          simp only [zoneAllows, Option.some.inj hdecides]

theorem attributesAllow_rows (privileged : Bool) (access : Access) :
    portAttributes.map (fun row => attributesAllow (upperHalf row.2) privileged access)
      = [privileged && access != .write, privileged && access != .execute, access != .write,
        access != .write, access == .read, access != .execute, access != .execute, false] := by
  cases privileged <;> cases access <;> decide

/-- The access map of the port, from the region that counts most to the
background. -/
theorem Mpu.Attributed.access_map (h : m.Attributed)
    (hctrl : m.ctrl = mpuCtrlEnable ||| mpuCtrlPrivdefena) (hx : ¬OnPrivateBus x)
    (privileged : Bool) (access : Access) :
    m.allows privileged access x =
      if RegionCovers (m.region mpuStackGuardRegion) x then false
      else if RegionCovers (m.region mpuTaskPrivateDataRegion) x then access != .execute
      else if RegionCovers (m.region mpuUnprivilegedDataRegion) x then access != .execute
      else if RegionCovers (m.region mpuUnprivilegedRodataRegion) x then access == .read
      else if RegionCovers (m.region mpuUnprivilegedSvcRegion) x then access != .write
      else if RegionCovers (m.region mpuUnprivilegedFunctionsRegion) x then access != .write
      else if RegionCovers (m.region mpuSramRegion) x then privileged && access != .execute
      else if RegionCovers (m.region mpuFlashRegion) x then privileged && access != .write
      else privileged && defaultAllows privileged x access := by
  have hrows := attributesAllow_rows privileged access
  simp only [portAttributes, List.map_cons, List.map_nil, List.cons.injEq, and_true] at hrows
  obtain ⟨hflash, hsram, hfunctions, hsvc, hrodata, hdata, hprivate, hguard⟩ := hrows
  have hrow (region : Nat) (attributes : UInt32) (rows : List (Nat × UInt32)) :
      zoneAllows privileged access x
          ((((region, attributes) :: rows).find? fun row =>
            decide (RegionCovers (m.region row.1) x)).map Prod.snd)
        = if RegionCovers (m.region region) x then
            attributesAllow (upperHalf attributes) privileged access
          else zoneAllows privileged access x
            ((rows.find? fun row => decide (RegionCovers (m.region row.1) x)).map Prod.snd) := by
    by_cases hcovers : RegionCovers (m.region region) x
    · simp only [List.find?_cons, hcovers, decide_true, Option.map_some, zoneAllows, if_true]
    · simp only [List.find?_cons, hcovers, decide_false, if_false]
  rw [h.allows_eq hctrl hx, Mpu.zone]
  simp only [portAttributes, List.reverse_cons, List.reverse_nil, List.nil_append,
    List.cons_append, hrow, hflash, hsram, hfunctions, hrodata, hdata, hguard]
  rfl

end Zones

/-! ## The blocks of the sections -/

/-- The addresses the port's region for a section applies to. -/
def sectionBlock (start stop : UInt32) : Set Nat :=
  {x | start < stop ∧ ∃ k, 5 ≤ k ∧ AlignedBlock.Reaches start.toNat stop.toNat k
    ∧ (∀ i, 5 ≤ i → AlignedBlock.Reaches start.toNat stop.toNat i → k ≤ i)
    ∧ AlignedBlock.base k start.toNat ≤ x ∧ x < AlignedBlock.base k start.toNat + 2 ^ k}

theorem Mapped.covers_iff {r : UInt32 × UInt32} {start stop : UInt32} (h : Mapped r start stop)
    (x : UInt32) : RegionCovers r x ↔ x.toNat ∈ sectionBlock start stop := by
  rcases h with ⟨hle, hoff⟩ | ⟨hlt, k, hk, hreach, hleast, hcovers⟩
  · refine iff_of_false (fun hcovers => hcovers.1 ?_) fun hx => ?_
    · rw [hoff]
      exact UInt32.zero_and
    · exact absurd hx.1 (UInt32.not_lt.mpr hle)
  · rw [hcovers]
    constructor
    · intro hx
      exact ⟨hlt, k, hk, hreach, hleast, hx⟩
    · rintro ⟨-, k', hk', hreach', hleast', hx⟩
      obtain rfl : k' = k := Nat.le_antisymm (hleast' k hk hreach) (hleast k' hk' hreach')
      exact hx

/-- A range that is a block by itself is its own block. -/
theorem sectionBlock_eq {start stop : UInt32} {k : Nat} (hk : 5 ≤ k)
    (hstop : stop.toNat = start.toNat + 2 ^ k) (hdvd : 2 ^ k ∣ start.toNat) :
    sectionBlock start stop = Set.Ico start.toNat stop.toNat := by
  have hpos : 0 < 2 ^ k := Nat.two_pow_pos k
  have hreach : AlignedBlock.Reaches start.toNat stop.toNat k := by
    rw [AlignedBlock.Reaches, AlignedBlock.base_eq_of_dvd hdvd, hstop]
  have hleast : ∀ i, AlignedBlock.Reaches start.toNat stop.toNat i → k ≤ i := by
    intro i hi
    have hle := hi.sub_le
    rw [hstop, Nat.add_sub_cancel_left] at hle
    exact (Nat.pow_le_pow_iff_right Nat.one_lt_two).mp hle
  ext x
  constructor
  · rintro ⟨-, k', hk', hreach', hleast', hx⟩
    obtain rfl : k' = k := Nat.le_antisymm (hleast' k hk hreach) (hleast k' hreach')
    rw [AlignedBlock.base_eq_of_dvd hdvd, ← hstop] at hx
    exact hx
  · intro hx
    refine ⟨UInt32.lt_iff_toNat_lt.mpr (by omega), k, hk, hreach, fun i _ => hleast i, ?_⟩
    rw [AlignedBlock.base_eq_of_dvd hdvd, ← hstop]
    exact hx

/-! ## Every reachable state -/

/-- The invariant behind the map of accesses. The unit is programmed for the
current task, which `Isolated` says, and each region that is on has the
attributes the port gives it: what the unit answers then depends on the ranges
alone. -/
structure Shielded (img : Image) (tasks : Nat → JrtTaskDefinition) (c : Cfg) : Prop where
  sched : Sched c
  isolated : Isolated img tasks c
  attributed : c.kernel.mpu.hasMpu = true → c.kernel.mpu.Attributed

namespace Shielded

variable {img : Image} {tasks : Nat → JrtTaskDefinition} {c c' : Cfg}

theorem current_lt (h : Shielded img tasks c) : c.kernel.currentTask < c.kernel.taskCount := by
  rw [h.sched.currentTask]
  exact h.sched.current_lt

/-- A step keeps the unit there and the attributes of its regions. -/
theorem mpu_step (himg : img.Linked) (h : Shielded img tasks c) {a : Action} {o : Observation}
    (hstep : StepCases c a c' o) : c'.kernel.mpu.hasMpu = c.kernel.mpu.hasMpu
      ∧ (c.kernel.mpu.Attributed → c'.kernel.mpu.Attributed) := by
  have hs := h.sched.step hstep
  have hi := h.isolated.step himg h.sched hstep
  by_cases ha : ∃ sp, a = .pendsv sp
  · obtain ⟨currentSp, rfl⟩ := ha
    cases hstep with
    | thread _ _ hseg => cases hseg
    | @pendsv _ sp k _ _ hk =>
        obtain ⟨-, -, mpu, hdata, hmpu⟩ := pendsvSwitch_install hk
        have hlt : k.currentTask < k.taskCount := by
          have hcur := hs.current_lt
          rwa [← hs.currentTask] at hcur
        obtain ⟨hmap, hguard⟩ := setups_mappable himg hi.table k.currentTask
        rw [← hi.setups _ hlt] at hmap hguard
        change 32 ∣ (taskStackGuard (k.tasks k.currentTask)).toNat at hguard
        change k.mpu.hasMpu = c.kernel.mpu.hasMpu ∧ (_ → k.mpu.Attributed)
        obtain ⟨m', hrun, hhas, -⟩ := archSetTaskPrivateData_spec c.kernel.mpu hmap
        obtain rfl : m' = mpu := Except.ok.inj (hrun.symm.trans hdata)
        rw [hmpu]
        refine ⟨(archSetTaskStackGuard_spec m' hguard).1.trans hhas, fun hattr => ?_⟩
        exact (hattr.archSetTaskPrivateData hmap hdata).archSetTaskStackGuard _
  · obtain ⟨hmpu, -⟩ := hstep.mpu_eq fun sp heq => ha ⟨sp, heq⟩
    rw [hmpu]
    exact ⟨rfl, fun hattr => hattr⟩

theorem step (himg : img.Linked) (h : Shielded img tasks c) {a : Action} {o : Observation}
    (hstep : StepCases c a c' o) : Shielded img tasks c' := by
  obtain ⟨hhas, hattr⟩ := h.mpu_step himg hstep
  refine ⟨h.sched.step hstep, h.isolated.step himg h.sched hstep, fun hm => ?_⟩
  exact hattr (h.attributed (hhas ▸ hm))

theorem boot (himg : img.Linked) (h : Boot img c) : ∃ tasks, Shielded img tasks c := by
  obtain ⟨tasks', hi⟩ := Isolated.boot himg h
  have hs : Sched c := Reachable.sched ⟨c, [], h, .nil⟩
  refine ⟨tasks', hs, hi, ?_⟩
  obtain ⟨k₀, config, k, hinit, rfl⟩ := h
  obtain ⟨tasks, -, hpos, -, hdefinitions, hregions, hsetUp⟩ := jrtKernelInit_cases hinit
  have htable := (validTable_iff himg tasks config.taskCount).mp ⟨hdefinitions, hregions⟩
  obtain ⟨mpu, hmpu, hmpuEq, -⟩ := kernelSetUp_cases hsetUp
  obtain ⟨mpu', hmpu', hhas, -⟩ := htable.configureMpu (k := k₀) himg hpos
  obtain rfl : mpu' = mpu := Except.ok.inj (hmpu'.symm.trans hmpu)
  have hledger := (kernelPrepared_ledger img k₀ tasks config.taskCount).2 0 (by omega)
  rw [Image.setups, if_pos hpos] at hledger
  have hsetup : ((kernelPrepared img k₀ tasks config.taskCount).tasks 0).setup
      = (tasks 0).setup := congrArg TaskLedger.setup hledger
  have hmap := htable.mappable hpos
  have hbase := congrArg TaskSetup.privateDataBase hsetup
  have hsize := congrArg TaskSetup.privateDataSize hsetup
  change Mappable (tasks 0).setup.privateDataBase (tasks 0).setup.privateDataSize at hmap
  rw [← hbase, ← hsize] at hmap
  intro hm
  change k.mpu.hasMpu = true at hm
  change k.mpu.Attributed
  rw [hmpuEq, hhas, ← kernelPrepared_mpu img k₀ tasks config.taskCount] at hm
  rw [hmpuEq]
  exact archConfigureMpu_attributed himg.sections hmap hm hmpu

theorem withMemory (h : Shielded img tasks c) (memory : Memory) :
    Shielded img tasks { c with kernel := { c.kernel with memory } } where
  sched := h.sched.withMemory memory
  isolated := ⟨h.isolated.table, h.isolated.setups, h.isolated.coherent, h.isolated.enabled,
    h.isolated.statics, h.isolated.privateDataBase, h.isolated.privateDataSize,
    h.isolated.stackGuard⟩
  attributed := h.attributed

end Shielded

theorem Reachable.shielded {img : Image} (himg : img.Linked) {c : Cfg} (h : Reachable img c) :
    ∃ tasks, Shielded img tasks c := by
  obtain ⟨c₀, tr, hboot, hrun⟩ := h
  obtain ⟨tasks, h₀⟩ := Shielded.boot himg hboot
  exact ⟨tasks, hrun.induction (Shielded img tasks) (fun h hstep => h.step himg hstep) h₀⟩

/-! ## What code may touch -/

def Kernel.guardBytes (k : Kernel) (i : Nat) : Set Nat :=
  Set.Ico (taskStackGuard (k.tasks i)).toNat ((taskStackGuard (k.tasks i)).toNat + 32)

def Kernel.privateBytes (k : Kernel) (i : Nat) : Set Nat := (k.tasks i).setup.privateRange

def LinkerSections.taskData (l : LinkerSections) : Set Nat :=
  sectionBlock l.unprivilegedTaskDataStart l.unprivilegedTaskDataEnd

/-- The data of the current task: its private region and task data. -/
def Kernel.ownData (k : Kernel) (l : LinkerSections) : Set Nat :=
  k.privateBytes k.currentTask ∪ l.taskData

def LinkerSections.rodata (l : LinkerSections) : Set Nat :=
  sectionBlock l.unprivilegedRodataStart l.unprivilegedRodataEnd

/-- The blocks of the two sections with code for unprivileged tasks. -/
def LinkerSections.code (l : LinkerSections) : Set Nat :=
  sectionBlock l.unprivilegedSvcStart l.unprivilegedSvcEnd
    ∪ sectionBlock l.unprivilegedFunctionsStart l.unprivilegedFunctionsEnd

/-- Flash, which the first region covers. -/
def flashBytes : Set Nat := Set.Ico 0x00400000 0x00600000

/-- The internal SRAM, which the second region covers. -/
def sramBytes : Set Nat := Set.Ico 0x20400000 0x20420000

section Map

variable {img : Image} {tasks : Nat → JrtTaskDefinition} {c : Cfg}

theorem Shielded.covers (h : Shielded img tasks c) (hmpu : c.kernel.mpu.hasMpu = true)
    (x : UInt32) :
    (RegionCovers (c.kernel.mpu.region mpuStackGuardRegion) x
        ↔ x.toNat ∈ c.kernel.guardBytes c.kernel.currentTask)
      ∧ (RegionCovers (c.kernel.mpu.region mpuTaskPrivateDataRegion) x
        ↔ x.toNat ∈ c.kernel.privateBytes c.kernel.currentTask)
      ∧ ∀ row ∈ img.sections.staticMap,
        (RegionCovers (c.kernel.mpu.region row.1) x ↔ x.toNat ∈ sectionBlock row.2.1 row.2.2) := by
  obtain ⟨hdata, hguard⟩ := h.isolated.coherent hmpu
  rw [h.isolated.privateDataBase, h.isolated.privateDataSize] at hdata
  rw [h.isolated.stackGuard] at hguard
  refine ⟨hguard.2 x, hdata.2 x, fun row hrow => ?_⟩
  exact (h.isolated.statics hmpu row hrow).covers_iff x

open scoped Classical in
/-- The map of the port in terms of the current task and the sections. -/
theorem Shielded.allows_iff (h : Shielded img tasks c) (hmpu : c.kernel.mpu.hasMpu = true)
    {x : UInt32} (hx : ¬OnPrivateBus x) (privileged : Bool) (access : Access) :
    c.kernel.mpu.allows privileged access x = true ↔
      x.toNat ∉ c.kernel.guardBytes c.kernel.currentTask
        ∧ if x.toNat ∈ c.kernel.ownData img.sections then
            access ≠ .execute
          else if x.toNat ∈ img.sections.rodata then access = .read
          else if x.toNat ∈ img.sections.code then access ≠ .write
          else privileged = true ∧
            if x.toNat ∈ sramBytes then access ≠ .execute
            else if x.toNat ∈ flashBytes then access ≠ .write
            else defaultAllows true x access = true := by
  obtain ⟨hguard, hprivate, hstatic⟩ := h.covers hmpu x
  simp only [LinkerSections.staticMap, List.forall_mem_cons] at hstatic
  obtain ⟨hflash, hsram, hfunctions, hsvc, hrodata, hdata, -⟩ := hstatic
  have hflashBytes : sectionBlock 0x00400000 0x00600000 = flashBytes :=
    sectionBlock_eq (k := 21) (by decide) rfl (by decide)
  have hsramBytes : sectionBlock 0x20400000 0x20420000 = sramBytes :=
    sectionBlock_eq (k := 17) (by decide) rfl (by decide)
  rw [hflashBytes] at hflash
  rw [hsramBytes] at hsram
  rw [(h.attributed hmpu).access_map (h.isolated.enabled hmpu) hx]
  simp only [hguard, hprivate, hdata, hrodata, hsvc, hfunctions, hsram, hflash, Set.mem_union,
    Kernel.ownData, LinkerSections.taskData, LinkerSections.rodata, LinkerSections.code]
  by_cases hg : x.toNat ∈ c.kernel.guardBytes c.kernel.currentTask
  · simp [hg]
  by_cases hp : x.toNat ∈ c.kernel.privateBytes c.kernel.currentTask
  · simp [hg, hp]
  by_cases hd : x.toNat ∈ sectionBlock img.sections.unprivilegedTaskDataStart
      img.sections.unprivilegedTaskDataEnd
  · simp [hg, hp, hd]
  by_cases hr : x.toNat ∈ sectionBlock img.sections.unprivilegedRodataStart
      img.sections.unprivilegedRodataEnd
  · simp [hg, hp, hd, hr]
  by_cases hs : x.toNat ∈ sectionBlock img.sections.unprivilegedSvcStart
      img.sections.unprivilegedSvcEnd
  · simp [hg, hp, hd, hr, hs]
  by_cases hf : x.toNat ∈ sectionBlock img.sections.unprivilegedFunctionsStart
      img.sections.unprivilegedFunctionsEnd
  · simp [hg, hp, hd, hr, hs, hf]
  -- What is left is for privileged code.
  cases privileged with
  | false => simp [hg, hp, hd, hr, hs, hf]
  | true =>
      simp only [hg, hp, hd, hr, hs, hf, if_false, or_self, true_and, not_false_eq_true,
        Bool.true_and]
      split
      · simp
      · split
        · simp
        · rfl

/-- Unprivileged code writes to its own region and to task data. -/
theorem Shielded.unprivileged_write_iff (h : Shielded img tasks c)
    (hmpu : c.kernel.mpu.hasMpu = true) {x : UInt32} (hx : ¬OnPrivateBus x) :
    c.kernel.mpu.allows false .write x = true ↔
      x.toNat ∉ c.kernel.guardBytes c.kernel.currentTask
        ∧ x.toNat ∈ c.kernel.ownData img.sections := by
  rw [h.allows_iff hmpu hx]
  refine and_congr_right fun _ => ?_
  split
  · next hin => exact iff_of_true (by decide) hin
  · next hout =>
      refine iff_of_false ?_ hout
      split
      · decide
      · split
        · exact fun hne => hne rfl
        · rintro ⟨hprivileged, -⟩
          cases hprivileged

/-- Privileged code writes everywhere but to the guard, flash, and what is
read-only for both. -/
theorem Shielded.privileged_write_iff (h : Shielded img tasks c)
    (hmpu : c.kernel.mpu.hasMpu = true) {x : UInt32} (hx : ¬OnPrivateBus x) :
    c.kernel.mpu.allows true .write x = true ↔
      x.toNat ∉ c.kernel.guardBytes c.kernel.currentTask
        ∧ (x.toNat ∈ c.kernel.ownData img.sections
          ∨ x.toNat ∉ img.sections.rodata ∪ img.sections.code ∪ flashBytes) := by
  rw [h.allows_iff hmpu hx]
  refine and_congr_right fun _ => ?_
  by_cases hdata : x.toNat ∈ c.kernel.ownData img.sections
  · simp [hdata]
  by_cases hr : x.toNat ∈ img.sections.rodata
  · simp [hdata, hr]
  by_cases hc : x.toNat ∈ img.sections.code
  · simp [hdata, hr, hc]
  rw [if_neg hdata, if_neg hr, if_neg hc]
  by_cases hsram : x.toNat ∈ sramBytes
  · have hflash : x.toNat ∉ flashBytes := by
      rintro ⟨-, hlt⟩
      exact absurd (Nat.lt_of_lt_of_le hlt (by decide)) (Nat.not_lt.mpr hsram.1)
    simp [hsram, hr, hc, hflash]
  · rw [if_neg hsram]
    by_cases hflash : x.toNat ∈ flashBytes
    · simp [hdata, hflash]
    · simp [hr, hc, hflash, defaultAllows]

end Map

/-! ## The theorem -/

/-- In every reachable state of a system with a memory protection unit,
for every address off the private bus: unprivileged code may write to the
private region of the current task and to the block of the task data
section, may read those, read-only data and its code, and may execute its
code only, never what it may write. Privileged code may write to all but
flash and the blocks of read-only data and code, own data excepted. The 32
bytes of the current task's stack guard are closed to every access of
either. Another task's private region is closed to unprivileged code where
none of the three blocks lies over it: a block is a power of two, so it can
reach beyond its section into the private data behind it. -/
theorem access_exact {img : Image} (himg : img.Linked) {c : Cfg} (h : Reachable img c)
    (hmpu : c.kernel.mpu.hasMpu = true) {x : UInt32} (hx : ¬OnPrivateBus x) :
    (c.kernel.mpu.allows false .write x = true ↔
        x.toNat ∉ c.kernel.guardBytes c.kernel.currentTask
          ∧ x.toNat ∈ c.kernel.ownData img.sections)
      ∧ (c.kernel.mpu.allows false .read x = true ↔
        x.toNat ∉ c.kernel.guardBytes c.kernel.currentTask
          ∧ x.toNat ∈ c.kernel.ownData img.sections
            ∪ img.sections.rodata ∪ img.sections.code)
      ∧ (c.kernel.mpu.allows false .execute x = true ↔
        x.toNat ∈ img.sections.code \ (c.kernel.guardBytes c.kernel.currentTask
          ∪ c.kernel.ownData img.sections
          ∪ img.sections.rodata))
      ∧ (c.kernel.mpu.allows true .write x = true ↔
        x.toNat ∉ c.kernel.guardBytes c.kernel.currentTask
          ∧ (x.toNat ∈ c.kernel.ownData img.sections
            ∨ x.toNat ∉ img.sections.rodata ∪ img.sections.code ∪ flashBytes))
      ∧ (x.toNat ∈ c.kernel.guardBytes c.kernel.currentTask →
        ∀ privileged access, c.kernel.mpu.allows privileged access x = false)
      ∧ ∀ j < c.kernel.taskCount, j ≠ c.kernel.currentTask → x.toNat ∈ c.kernel.privateBytes j →
        x.toNat ∉ img.sections.taskData ∪ img.sections.rodata ∪ img.sections.code →
        ∀ access, c.kernel.mpu.allows false access x = false := by
  obtain ⟨tasks, hg⟩ := h.shielded himg
  refine ⟨hg.unprivileged_write_iff hmpu hx, ?_, ?_, hg.privileged_write_iff hmpu hx,
    fun hguard privileged access => ?_, ?_⟩
  · rw [hg.allows_iff hmpu hx]
    refine and_congr_right fun _ => ?_
    split
    · next hin => simp [hin]
    · next hout =>
        split
        · next hin => simp [hin]
        · next hout' => simp [hout, hout']
  · rw [hg.allows_iff hmpu hx]
    by_cases hguard : x.toNat ∈ c.kernel.guardBytes c.kernel.currentTask
    · simp [hguard]
    split
    · next hin => simp [hin]
    · next hout =>
        split
        · next hin => simp [hin]
        · next hout' => simp [hguard, hout, hout']
  · rw [Bool.eq_false_iff]
    intro hallows
    exact ((hg.allows_iff hmpu hx privileged access).mp hallows).1 hguard
  · intro j hj hne hxj hout access
    have hother : x.toNat ∉ c.kernel.privateBytes c.kernel.currentTask := by
      have hdisjoint := (setups_isolated himg hg.isolated.table (i := c.kernel.currentTask)
        (j := j)).1 hne
      rw [← hg.isolated.setups _ hg.current_lt, ← hg.isolated.setups j hj] at hdisjoint
      exact Set.disjoint_right.mp hdisjoint hxj
    simp only [Set.mem_union, not_or] at hout
    obtain ⟨⟨hdata, hrodata⟩, hcode⟩ := hout
    rw [Bool.eq_false_iff]
    intro hallows
    have hmap := ((hg.allows_iff hmpu hx false access).mp hallows).2
    simp [Kernel.ownData, hother, hdata, hrodata, hcode] at hmap

/-- The mapped system behind its first switch: the second task's region is
open to it, and the first one's is not. -/
theorem access_exact_sample : ∃ tr c, mappedRun = some (tr, c) ∧ c.kernel.mpu.hasMpu = true
    ∧ ¬OnPrivateBus 0x2040C000 ∧ c.kernel.mpu.allows false .write 0x2040C000 = false
    ∧ c.kernel.mpu.allows false .write 0x2040C040 = true
    ∧ (c.kernel.mpu.allows false .write 0x2040C040 = true ↔
        (0x2040C040 : UInt32).toNat ∉ c.kernel.guardBytes c.kernel.currentTask
          ∧ (0x2040C040 : UInt32).toNat
            ∈ c.kernel.ownData Image.mapped.sections) := by
  have hsome : (mappedRun.any fun r => r.2.kernel.mpu.hasMpu
      && r.2.kernel.mpu.allows false .write 0x2040C000 == false
      && r.2.kernel.mpu.allows false .write 0x2040C040) = true := by decide +kernel
  obtain ⟨⟨tr, c⟩, hrun, hc⟩ := (Option.any_eq_true _ _).mp hsome
  rw [Bool.and_eq_true, Bool.and_eq_true, beq_iff_eq] at hc
  obtain ⟨⟨hmpu, hclosed⟩, hopen⟩ := hc
  exact ⟨tr, c, hrun, hmpu, by decide, hclosed, hopen,
    (access_exact Image.mapped_linked (mappedRun_reachable hrun) hmpu (by decide)).1⟩

/-! ## Integrity

What the running task stores is up to the unit. The registers the context
switch restores have the privilege the task's flags give, and unprivileged
code cannot take more; so the map above says who has stored what. -/

def Machine.privileged (m : Machine) : Bool := m.regs.control &&& 1 == 0

/-- The running task stores where the unit lets it, and only privileged code
changes the privilege. This is the hardware's part and an assumption on the
run: the model lets a task store anywhere, and knows of no fault handler. -/
def MachineTransition.Obeys (x : MachineTransition) : Prop :=
  x.event = .thread →
    (∀ a : Ptr, x.post.cfg.kernel.memory a ≠ x.pre.cfg.kernel.memory a →
      x.pre.cfg.kernel.mpu.allows x.pre.privileged .write a = true)
    ∧ (x.pre.privileged = false → x.post.privileged = false)

theorem pendsvHandler_cases {fpu : Bool} {r regs : Registers} {k k' : Kernel}
    (h : pendsvHandler fpu r k = .ok (regs, k')) :
    ∃ sp, pendsvSwitch { k with memory := (pendsvPush fpu r k.memory).2 }
        (pendsvPush fpu r k.memory).1 = .ok (sp, k')
      ∧ regs = resumeContext fpu k' sp r := by
  simp only [pendsvHandler, exec_bind_eq_ok] at h
  obtain ⟨⟨sp, k₁⟩, hswitch, h⟩ := h
  obtain ⟨rfl, rfl⟩ := Prod.mk.inj (Except.ok.inj h)
  exact ⟨sp, hswitch, rfl⟩

/-- A switch of the machine is a switch of the kernel with the frame saved. -/
theorem pendsvHandler_step {fpu : Bool} {m : Machine} {regs : Registers} {k : Kernel}
    (hstarted : m.cfg.kernel.kernelStarted = true) (hpending : m.cfg.pending = true)
    (h : pendsvHandler fpu m.regs m.cfg.kernel = .ok (regs, k)) :
    let pushed := pendsvPush fpu m.regs m.cfg.kernel.memory
    StepCases { m.cfg with kernel := { m.cfg.kernel with memory := pushed.2 } }
      (.pendsv pushed.1) { m.cfg with kernel := k, pending := false } {} := by
  obtain ⟨sp, hswitch, -⟩ := pendsvHandler_cases h
  exact .pendsv hstarted hpending hswitch

/-- Only the start makes the kernel a started one. -/
theorem StepCases.started_before {c c' : Cfg} {a : Action} {o : Observation}
    (h : StepCases c a c' o) (ha : a ≠ .start) (hstarted : c'.kernel.kernelStarted = true) :
    c.kernel.kernelStarted = true := by
  cases h with
  | start => exact absurd rfl ha
  | thread hs => exact hs
  | tick hs => exact hs
  | isr hs => exact hs
  | pendsv hs => exact hs
  | store => exact hstarted
  | cycles => exact hstarted

theorem resumeContext_privileged {fpu : Bool} {c : Cfg} {sp : Ptr} {r : Registers}
    (hflags : (c.kernel.tasks c.kernel.currentTask).flags &&& jrtTaskFlagUnprivileged ≠ 0) :
    Machine.privileged ⟨c, resumeContext fpu c.kernel sp r⟩ = false :=
  beq_false_of_ne ((resumeContext_control fpu c.kernel sp r).2.mpr hflags)

/-- The machine is a system with a memory protection unit where an unprivileged
task runs unprivileged, and `x` is in none of the stacks. Stacks are left out
since the context switch writes them whatever the unit says. -/
structure Confined (img : Image) (tasks : Nat → JrtTaskDefinition) (x : Ptr) (m : Machine) :
    Prop where
  shielded : Shielded img tasks m.cfg
  hasMpu : m.cfg.kernel.mpu.hasMpu = true
  off_stacks : ∀ i < m.cfg.kernel.taskCount, x.toNat ∉ m.cfg.kernel.stackBytes i
  unprivileged : m.cfg.kernel.kernelStarted = true →
    (m.cfg.kernel.tasks m.current).flags &&& jrtTaskFlagUnprivileged ≠ 0 → m.privileged = false

namespace Confined

variable {img : Image} {tasks : Nat → JrtTaskDefinition} {fpu : Bool} {x : Ptr} {m m' : Machine}
  {e : MachineEvent}

theorem of_step (himg : img.Linked) {c c' : Cfg} {r regs : Registers} {a : Action}
    {o : Observation} (h : Confined img tasks x ⟨c, r⟩) (hstep : StepCases c a c' o)
    (hunprivileged : c'.kernel.kernelStarted = true →
      (c'.kernel.tasks c'.kernel.currentTask).flags &&& jrtTaskFlagUnprivileged ≠ 0 →
      Machine.privileged ⟨c', regs⟩ = false) : Confined img tasks x ⟨c', regs⟩ where
  shielded := h.shielded.step himg hstep
  hasMpu := (h.shielded.mpu_step himg hstep).1.trans h.hasMpu
  off_stacks := by
    intro i hi
    change i < c'.kernel.taskCount at hi
    rw [hstep.taskCount] at hi
    rw [stackBytes_eq (hstep.setup i)]
    exact h.off_stacks i hi
  unprivileged := hunprivileged

theorem withMemory (h : Confined img tasks x m) (memory : Memory) {regs : Registers}
    (hregs : m.privileged = false → Machine.privileged ⟨m.cfg, regs⟩ = false) :
    Confined img tasks x ⟨{ m.cfg with kernel := { m.cfg.kernel with memory } }, regs⟩ where
  shielded := h.shielded.withMemory memory
  hasMpu := h.hasMpu
  off_stacks := h.off_stacks
  unprivileged := fun hstarted hflags => hregs (h.unprivileged hstarted hflags)

theorem step (himg : img.Linked) (h : Confined img tasks x m) (hstep : MachineStep fpu m e m')
    (hobeys : MachineTransition.Obeys ⟨m, e, m'⟩) : Confined img tasks x m' := by
  cases hstep with
  | start hs =>
      exact h.of_step himg (step_cases hs) fun _ hflags => resumeContext_privileged hflags
  | thread => exact h.withMemory _ (hobeys rfl).2
  | @system a c o ha hs =>
      have hcases := step_cases hs
      have hne : a ≠ .start := by
        rintro rfl
        cases ha
      obtain ⟨-, hcur⟩ := hcases.mpu_eq fun sp heq => by
        rw [heq] at ha
        cases ha
      refine h.of_step himg hcases fun hstarted hflags => ?_
      have hsetup := congrArg TaskSetup.flags (hcases.setup m.current)
      change (c.kernel.tasks m.cfg.kernel.currentTask).flags
        = (m.cfg.kernel.tasks m.cfg.kernel.currentTask).flags at hsetup
      rw [hcur, hsetup] at hflags
      exact h.unprivileged (hcases.started_before hne hstarted) hflags
  | @pendsv regs k hstarted hpending _ hhandler =>
      obtain ⟨sp, -, rfl⟩ := pendsvHandler_cases hhandler
      exact of_step himg (h.withMemory _ fun hm => hm) (pendsvHandler_step hstarted hpending
        hhandler) fun _ hflags => resumeContext_privileged hflags

end Confined

/-- The running task counts the word at `a` up. -/
def Machine.count (m : Machine) (a : Ptr) : Machine :=
  { m with cfg := { m.cfg with kernel := { m.cfg.kernel with
      memory := fun b => if b = a then m.cfg.kernel.memory b + 1 else m.cfg.kernel.memory b } } }

end JustRT
