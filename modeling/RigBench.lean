import RigBench.Frame.Grammar
import RigBench.FrameQueue.Wakeup
import RigBench.Json.Records
import RigBench.Main
import RigBench.Rehearsal.Host
import RigBench.Rehearsal.ScriptedRig
import RigBench.Server
import RigBench.Proofs.FrameStream
import RigBench.Proofs.History
import RigBench.Proofs.SampleCodec
import RigBench.Proofs.SingleValue
import RigBench.Proofs.Reception
import RigBench.Proofs.Tick
import RigBench.Proofs.Run
import RigBench.Proofs.ExperimentClock
import RigBench.Proofs.SampleStream
import RigBench.Proofs.KeepaliveWindow
import RigBench.Proofs.LinkLoss
import RigBench.Proofs.FrameDelivery
import RigBench.Proofs.Readiness
import RigBench.Proofs.DrivenTime
import RigBench.Proofs.Cycle
import RigBench.Proofs.Timetable
import RigBench.Proofs.DeadlineGrid
import RigBench.Proofs.Lockstep
import RigBench.Proofs.LinkTask
import RigBench.Proofs.RefusedFrames
import RigBench.Proofs.HomingRig
import RigBench.Proofs.Restart
import RigBench.Proofs.TaskLog
import RigBench.Proofs.RigSafety
import RigBench.Proofs.ServerStep
import RigBench.Proofs.OneClient
import RigBench.Proofs.Feed
import RigBench.Proofs.WriterWakeup
import RigBench.Proofs.SampleDelivery
import RigBench.Proofs.TransportInvariant
import RigBench.Proofs.LossyFifo
import RigBench.Proofs.PayloadLayout
import RigBench.Proofs.Numerals
import RigBench.Proofs.AddressText
import RigBench.Proofs.DurationText
import RigBench.Proofs.TomlText
import RigBench.Proofs.TomlDocument
import RigBench.Proofs.ConfigText
import RigBench.Proofs.SteadyRun
import RigBench.Proofs.ValidBench
import RigBench.Proofs.Rounding
import RigBench.Proofs.Binary64Value
import RigBench.Proofs.Binary64Arithmetic
import RigBench.Proofs.SetpointRange
import RigBench.Proofs.RecordedTimes
import RigBench.Proofs.CycleEndings
import RigBench.Proofs.LifecycleSteps
import RigBench.Proofs.RampShape
import RigBench.Proofs.FailingRig
