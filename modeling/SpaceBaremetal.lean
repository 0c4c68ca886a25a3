import SpaceBaremetal.Boot.Memory
import SpaceBaremetal.Boot.Theorems
import SpaceBaremetal.Command.Pipeline
import SpaceBaremetal.Crc32.Polynomial
import SpaceBaremetal.EventLog.Dump
import SpaceBaremetal.EventLog.Lossless
import SpaceBaremetal.EventLog.Timestamps
import SpaceBaremetal.Fdir.Bodies
import SpaceBaremetal.Fdir.ImageGate
import SpaceBaremetal.ImageIntegrity.Digest
import SpaceBaremetal.IsrStackGuard
import SpaceBaremetal.Kernel.Queue.Values
import SpaceBaremetal.Kernel.Tasks.TimeOut
import SpaceBaremetal.MemoryProtection.Violations
import SpaceBaremetal.MemoryScrub.Escalation
import SpaceBaremetal.MemoryScrub.FullScrub
import SpaceBaremetal.MemoryScrub.Run
import SpaceBaremetal.PatchImage.Theorems
import SpaceBaremetal.SafePolicy.Theorems
import SpaceBaremetal.StateMachine.Maximum
import SpaceBaremetal.StateMachine.Theorems
import SpaceBaremetal.Telemetry.Theorems
import SpaceBaremetal.Watchdog.Recovery
