import EcuTelemetry.Backend.AlertTable
import EcuTelemetry.Backend.Alerts
import EcuTelemetry.Backend.Anomaly
import EcuTelemetry.Backend.AnomalyFrame
import EcuTelemetry.Backend.Api
import EcuTelemetry.Backend.AutoResolve
import EcuTelemetry.Backend.DamagedFrame
import EcuTelemetry.Backend.Database
import EcuTelemetry.Backend.DefaultRules
import EcuTelemetry.Backend.DeviceFrame
import EcuTelemetry.Backend.DeviceRecord
import EcuTelemetry.Backend.DeviceShare
import EcuTelemetry.Backend.EventBus
import EcuTelemetry.Backend.Ewma
import EcuTelemetry.Backend.ExactFloat
import EcuTelemetry.Backend.FlagUnion
import EcuTelemetry.Backend.FlushFailure
import EcuTelemetry.Backend.HelloModels
import EcuTelemetry.Backend.IeeeFloat
import EcuTelemetry.Backend.Ingest
import EcuTelemetry.Backend.IngestFrame
import EcuTelemetry.Backend.Isolation
import EcuTelemetry.Backend.JobAcks
import EcuTelemetry.Backend.JobHistory
import EcuTelemetry.Backend.LateSent
import EcuTelemetry.Backend.LevelShift
import EcuTelemetry.Backend.LossAccounting
import EcuTelemetry.Backend.MinuteView
import EcuTelemetry.Backend.NonFinite
import EcuTelemetry.Backend.Overrides
import EcuTelemetry.Backend.OwnEvents
import EcuTelemetry.Backend.Protocol
import EcuTelemetry.Backend.Pushes
import EcuTelemetry.Backend.PyValue
import EcuTelemetry.Backend.RateWindow
import EcuTelemetry.Backend.RealFloat
import EcuTelemetry.Backend.Receiver
import EcuTelemetry.Backend.Reconnects
import EcuTelemetry.Backend.Registry
import EcuTelemetry.Backend.Rollup
import EcuTelemetry.Backend.RuleDocuments
import EcuTelemetry.Backend.RuleRuns
import EcuTelemetry.Backend.RuleSafety
import EcuTelemetry.Backend.Rules
import EcuTelemetry.Backend.Separation
import EcuTelemetry.Backend.ShortDisturbance
import EcuTelemetry.Backend.Stats
import EcuTelemetry.Backend.StatsRestart
import EcuTelemetry.Backend.StepRate
import EcuTelemetry.Backend.StreamDecoder
import EcuTelemetry.Backend.StreamSafety
import EcuTelemetry.Backend.TickSweep
import EcuTelemetry.Backend.WriterRegistry
import EcuTelemetry.Firmware.Agent
import EcuTelemetry.Firmware.AgentFrame
import EcuTelemetry.Firmware.AgentLoop
import EcuTelemetry.Firmware.AgentRun
import EcuTelemetry.Firmware.Causes
import EcuTelemetry.Firmware.Channel
import EcuTelemetry.Firmware.Comm
import EcuTelemetry.Firmware.ConfigInForce
import EcuTelemetry.Firmware.ConfigReload
import EcuTelemetry.Firmware.ConfigText
import EcuTelemetry.Firmware.Decoder
import EcuTelemetry.Firmware.FaultAcks
import EcuTelemetry.Firmware.FrameCheck
import EcuTelemetry.Firmware.FrameStream
import EcuTelemetry.Firmware.Generator
import EcuTelemetry.Firmware.Indexed
import EcuTelemetry.Firmware.Injections
import EcuTelemetry.Firmware.Layout
import EcuTelemetry.Firmware.LiveSensors
import EcuTelemetry.Firmware.OutboundStream
import EcuTelemetry.Firmware.Outgoing
import EcuTelemetry.Firmware.Physics
import EcuTelemetry.Firmware.Plant
import EcuTelemetry.Firmware.PlantBounds
import EcuTelemetry.Firmware.Protocol
import EcuTelemetry.Firmware.Receive
import EcuTelemetry.Firmware.RoundTrip
import EcuTelemetry.Firmware.SampleFlags
import EcuTelemetry.Firmware.Thresholds
import EcuTelemetry.Firmware.UsableLimits
import EcuTelemetry.Firmware.VersionText
import EcuTelemetry.Firmware.Versions
import EcuTelemetry.Firmware.World
import EcuTelemetry.Lib.AsyncQueue
import EcuTelemetry.Lib.Binary
import EcuTelemetry.Lib.Bytes
import EcuTelemetry.Lib.Crc32
import EcuTelemetry.Lib.Decimal
import EcuTelemetry.Lib.Deque
import EcuTelemetry.Lib.Dict
import EcuTelemetry.Lib.Digits
import EcuTelemetry.Lib.Field
import EcuTelemetry.Lib.FloatOps
import EcuTelemetry.Lib.FloatOrder
import EcuTelemetry.Lib.General
import EcuTelemetry.Lib.History
import EcuTelemetry.Lib.Incremental
import EcuTelemetry.Lib.Latch
import EcuTelemetry.Lib.Narrowing
import EcuTelemetry.Lib.Nearest
import EcuTelemetry.Lib.Numerals
import EcuTelemetry.Lib.Printf
import EcuTelemetry.Lib.Proc
import EcuTelemetry.Lib.Rounding
import EcuTelemetry.Lib.Run
import EcuTelemetry.Lib.RunningMax
import EcuTelemetry.Lib.Strto
import EcuTelemetry.Lib.Text
import EcuTelemetry.Lib.TimeWindow
import EcuTelemetry.Lib.TwoRun
import EcuTelemetry.Lib.XorLinear
import EcuTelemetry.Sim.AlertChecks
import EcuTelemetry.Sim.LossyProxy
import EcuTelemetry.Sim.ProxyRelay
import EcuTelemetry.System.ConfigLimits
import EcuTelemetry.System.FaultRequests
import EcuTelemetry.Wire.Decoders
import EcuTelemetry.Wire.Frame
import EcuTelemetry.Wire.Golden
import EcuTelemetry.Wire.VersionTexts
