import JustRT.Lib.Scan
import JustRT.Types
import JustRT.Benchmark
import JustRT.Task
import JustRT.Sync
import JustRT.Timer
import JustRT.Tick
import JustRT.Mpu
import JustRT.PendSV
import JustRT.Init
import JustRT.System
import JustRT.Booted
import JustRT.Scheduler
import JustRT.Grant
import JustRT.Lib.Alarm
import JustRT.Lib.Chain
import JustRT.Lib.Reservation
import JustRT.Lib.Ring
import JustRT.QueueFifo
import JustRT.TimerList
import JustRT.TimerModel
import JustRT.Config
import JustRT.Context
import JustRT.EventGroup
import JustRT.Lib.Bitmap
import JustRT.Lib.Blocks
import JustRT.MemoryPool
import JustRT.Notification
import JustRT.RoundRobin
import JustRT.Semaphore
import JustRT.Suspension
import JustRT.Checker
import JustRT.Discipline
import JustRT.Mutex
import JustRT.Lib.Stopwatch
import JustRT.Sleep
import JustRT.Timeout
import JustRT.Milliseconds
import JustRT.Selection
import JustRT.Diagnosis
import JustRT.Early
import JustRT.EventResult
import JustRT.NotifyResult
import JustRT.DelayUntil
import JustRT.Launch
import JustRT.Lib.Inheritance
import JustRT.Balance
import JustRT.Restoration
import JustRT.LockTimeout
import JustRT.Preemption
import JustRT.LockOrder
import JustRT.Access
import JustRT.MutualExclusion
import JustRT.Progress
import JustRT.Lib.LongDivision
import JustRT.Division
import JustRT.Lib.Bytes
import JustRT.Startup
import JustRT.ListCheck
import JustRT.Meter
import JustRT.MeterStep
import JustRT.StackUsage
import JustRT.Activation
import JustRT.Latency
import JustRT.Lib.Interference
import JustRT.Lib.Segments
import JustRT.Critical
import JustRT.Masking
import JustRT.Sections
import JustRT.Core
import JustRT.CodeSegments
import JustRT.CallSegments
import JustRT.Refinement
