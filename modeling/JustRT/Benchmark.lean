import JustRT.Types

/-!
# Benchmark hooks

The four hooks of `benchmark.c` the kernel calls inside its critical
sections, where a task becomes `READY`, starts, leaves, or has a
notification coalesce. They only write benchmark records, so every other
result about the kernel goes through whether or not the cycle counter is
available. The cycle counter itself is a variable of the kernel that
the processor moves on (`Action.cycles`); a hook reads it and nothing else
of the world outside.
-/

namespace JustRT

/-- Apply one record update, if the cycle counter is available. -/
def Benchmark.onRecord (b : Benchmark) (taskId : Nat)
    (f : JrtTaskBenchmarkRecord → JrtTaskBenchmarkRecord) : Benchmark :=
  if b.cycleCounterAvailable then
    { b with records := fun i => if i = taskId then f (b.records taskId) else b.records i }
  else b

def taskBenchmarkReleaseLocked (k : Kernel) (taskId : Nat) (coalesced : Bool) : Kernel :=
  let now := k.benchmark.dwtCyccnt
  { k with benchmark := k.benchmark.onRecord taskId fun record =>
      let record := { record with releaseCount := record.releaseCount + 1 }
      let record := if coalesced then
          { record with coalescedCount := record.coalescedCount + 1 }
        else record
      if record.releasePending then record
      else { record with releaseCycle := now, releasePending := true } }

def taskBenchmarkCoalescedLocked (k : Kernel) (taskId : Nat) : Kernel :=
  { k with benchmark := k.benchmark.onRecord taskId fun record =>
      { record with coalescedCount := record.coalescedCount + 1 } }

def taskBenchmarkStartLocked (k : Kernel) (taskId : Nat) : Kernel :=
  let now := k.benchmark.dwtCyccnt
  { k with benchmark := k.benchmark.onRecord taskId fun record =>
      if !record.releasePending || record.activationActive then record
      else
        let latency := now - record.releaseCycle
        { record with
          maxReleaseLatencyCycles :=
            if latency > record.maxReleaseLatencyCycles then latency
            else record.maxReleaseLatencyCycles
          activationStartCycle := now
          releasePending := false
          activationActive := true } }

def taskBenchmarkCompleteLocked (k : Kernel) (taskId : Nat) : Kernel :=
  let now := k.benchmark.dwtCyccnt
  { k with benchmark := k.benchmark.onRecord taskId fun record =>
      if !record.activationActive then record
      else
        let duration := now - record.activationStartCycle
        { record with
          maxActivationCycles :=
            if duration > record.maxActivationCycles then duration
            else record.maxActivationCycles
          completionCount := record.completionCount + 1
          activationActive := false } }

/-! ## Initialisation -/

/-- The loop of `divide_u64_u32`, with `bit` iterations left. -/
def divideLoop (numerator denominator : UInt64) : Nat → UInt64 → UInt64 → UInt64
  | 0, _, quotient => quotient
  | bit + 1, remainder, quotient =>
      let shift := UInt64.ofNat bit
      let remainder := (remainder <<< 1) ||| ((numerator >>> shift) &&& 1)
      if remainder ≥ denominator then
        divideLoop numerator denominator bit (remainder - denominator)
          (quotient ||| ((1 : UInt64) <<< shift))
      else divideLoop numerator denominator bit remainder quotient

def divideU64U32 (numerator : UInt64) (denominator : UInt32) : UInt64 :=
  divideLoop numerator denominator.toUInt64 64 0 0

def periodToCycles (jrtCoreClockHz jrtTickRateHz periodTicks : UInt32) : UInt32 :=
  let periodCycles := divideU64U32 (periodTicks.toUInt64 * jrtCoreClockHz.toUInt64) jrtTickRateHz
  if periodCycles ≤ 4294967295 then periodCycles.toUInt32 else 0

def clearRecord : JrtTaskBenchmarkRecord :=
  { releaseCount := 0, completionCount := 0, coalescedCount := 0, releaseCycle := 0
    activationStartCycle := 0, maxReleaseLatencyCycles := 0, maxActivationCycles := 0
    periodCycles := 0, releasePending := false, activationActive := false }

/-- `task_benchmark_init`. `available` is what
`arch_cycle_counter_available()` reads, `periods` the periods in ticks of
the task definitions. -/
def taskBenchmarkInit (b : Benchmark) (available : Bool) (jrtCoreClockHz jrtTickRateHz : UInt32)
    (taskCount : Nat) (periods : Nat → UInt32) (applicationTaskCount : Nat) : Benchmark :=
  { b with
    cycleCounterAvailable := available
    taskCount := applicationTaskCount + 1
    cycleFrequencyHz := if available then jrtCoreClockHz else 0
    records := fun index =>
      if index < applicationTaskCount then
        { clearRecord with
          periodCycles := periodToCycles jrtCoreClockHz jrtTickRateHz (periods index) }
      else if index < taskCount then clearRecord
      else b.records index
    initialized := true }

end JustRT
