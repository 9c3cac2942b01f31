import JustRT.Tick
import JustRT.Mpu

/-!
# The context switch

`pendsv_switch`: save the outgoing task, scan the table twice for the
next one, and install it. The save checks the outgoing stack pointer
before anything else, and halts where it lies outside the task's stack;
it also takes a task that is still `RUNNING` back to `READY`, so that the
scans need not treat it specially. The first scan looks for the highest
priority of a `READY` task, the second for the first task of that priority
behind the one that ran last. What the handler does with registers is in
`JustRT.Context`.
-/

namespace JustRT

def jrtTaskStackFill : UInt32 := 0xA5A5A5A5

def taskStackGuard (t : Task) : Ptr := t.stackBottom - 32

/-! ## Saving the outgoing task -/

/-- The fill-pattern scan of `update_stack_usage`, with `fuel` words of the
stack left: the first word that no longer holds the pattern. -/
def fillScan (memory : Memory) (stackTop : Ptr) : Nat → Ptr → Ptr
  | 0, word => word
  | fuel + 1, word =>
      if word < stackTop ∧ memory word = jrtTaskStackFill then
        fillScan memory stackTop fuel (word + 4)
      else word

/-- Keep the greatest stack usage of any task. -/
def recordHighWater (k : Kernel) (highWaterWords : UInt32) : Kernel :=
  if highWaterWords > k.diag.gStackHighWaterWords then
    k.mapDiag fun d => { d with
      gStackHighWaterWords := highWaterWords
      gStackHighWaterTask := k.gCurrentTaskIndex }
  else k

def updateStackUsage (k : Kernel) (task : Nat) (currentSp : Ptr) : Exec Kernel :=
  let t := k.tasks task
  if currentSp < t.stackBottom ∨ currentSp > t.stackTop ∨ currentSp &&& 3 ≠ 0 then
    .error (.fatal .stackOverflow
      (k.mapDiag fun d => { d with
        gStackFault := 1
        gStackFaultTask := k.gCurrentTaskIndex
        gStackFaultSp := currentSp }))
  else
    let minimumSp := if currentSp < t.minimumSp then currentSp else t.minimumSp
    let word := fillScan k.memory t.stackTop ((t.stackTop - t.stackBottom) / 4).toNat t.stackBottom
    let highWaterWords := (t.stackTop - word) / 4
    .ok (recordHighWater (k.setTask task (t.withStackUsage minimumSp highWaterWords))
      highWaterWords)

/-- The part of `pendsv_switch` before its scans: the outgoing task's
stack pointer and stack usage are saved, and a `RUNNING` task returns to
`READY`. -/
def pendsvSave (k : Kernel) (currentSp : Ptr) : Exec Kernel := do
  let current := k.currentTask
  let k ← updateStackUsage (k.setTask current ((k.tasks current).withSp currentSp))
    current currentSp
  let t := k.tasks current
  return k.setTask current ((t.withRunCount (t.runCount + 1)).withState
    (if t.state = .running then .ready else t.state))

/-! ## Selection -/

/-- The task at `offset` behind the outgoing one. -/
def scanIndex (k : Kernel) (baseIndex offset : Nat) : Nat :=
  (baseIndex + offset) % k.taskCount

/-- The first scan: the highest priority of a `READY` task. -/
def pendsvBestPriority (k : Kernel) (baseIndex : Nat) : Nat :=
  (List.range k.taskCount).foldl
    (fun best offset =>
      let t := k.tasks (scanIndex k baseIndex offset)
      if t.state = .ready ∧ t.priority > best then t.priority else best)
    0

/-- The second scan, over the offsets `1` to `task_count`: the offset of
the first `READY` task of that priority. -/
def pendsvSelectedOffset (k : Kernel) (baseIndex bestPriority : Nat) : Option Nat :=
  (List.range' 1 k.taskCount).find? fun offset =>
    let t := k.tasks (scanIndex k baseIndex offset)
    t.state == .ready && t.priority == bestPriority

/-- The task `pendsv_switch` selects: `g_current_task_index` keeps its
value if the second scan ends without a candidate. -/
def pendsvNextIndex (k : Kernel) (baseIndex : Nat) : Nat :=
  match pendsvSelectedOffset k baseIndex (pendsvBestPriority k baseIndex) with
  | some offset => scanIndex k baseIndex offset
  | none => k.gCurrentTaskIndex

/-- Keep the scan statistics. -/
def pendsvStatistics (k : Kernel) (baseIndex : Nat) : Kernel :=
  let selected := pendsvSelectedOffset k baseIndex (pendsvBestPriority k baseIndex)
  let pass2Iters := selected.getD k.taskCount
  let selectedOffset := selected.getD k.taskCount
  k.mapDiag fun d => { d with
    gSchedPass1ItersTotal := d.gSchedPass1ItersTotal + UInt32.ofNat k.taskCount
    gSchedPass2ItersTotal := d.gSchedPass2ItersTotal + UInt32.ofNat pass2Iters
    gSchedPass2ItersMax :=
      if pass2Iters > d.gSchedPass2ItersMax then pass2Iters else d.gSchedPass2ItersMax
    gReadyScanDepthMax :=
      if selectedOffset < k.taskCount ∧ selectedOffset > d.gReadyScanDepthMax then
        selectedOffset
      else d.gReadyScanDepthMax
    gContextSwitches :=
      if pendsvNextIndex k baseIndex ≠ baseIndex then d.gContextSwitches + 1
      else d.gContextSwitches }

/-! ## Installing the selected task -/

/-- The part of `pendsv_switch` behind its scans. -/
def pendsvInstall (k : Kernel) (nextIndex : Nat) : Exec Kernel := do
  let k := { k with gCurrentTaskIndex := nextIndex, currentTask := nextIndex }
  let k := k.setTask nextIndex ((k.tasks nextIndex).withState .running)
  let k := taskBenchmarkStartLocked k nextIndex
  let t := k.tasks nextIndex
  let mpu ← archSetTaskPrivateData k.mpu t.privateDataBase t.privateDataSize
  return { k with mpu := archSetTaskStackGuard mpu (taskStackGuard t) }

/-- `pendsv_switch`: the selected task's saved stack pointer, and the
state behind the switch. -/
def pendsvSwitch (k : Kernel) (currentSp : Ptr) : Exec (Ptr × Kernel) := do
  let baseIndex := k.gCurrentTaskIndex
  let k ← pendsvSave k currentSp
  let nextIndex := pendsvNextIndex k baseIndex
  let k ← pendsvInstall (pendsvStatistics k baseIndex) nextIndex
  return ((k.tasks k.currentTask).sp, k)

end JustRT
