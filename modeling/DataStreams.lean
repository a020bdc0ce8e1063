import DataStreams.PeerBytes
import DataStreams.V31.Verifiable
import DataStreams.V31.Retirement
import DataStreams.V30.ChannelWatermarks
import DataStreams.V31.Freshness
import DataStreams.V31.EncodeFailures
import DataStreams.V30.ValidityWindow
import DataStreams.V31.Promotion
import DataStreams.V31.Convergence
import DataStreams.Protocol.BudgetRuns
import DataStreams.V31.BackfillDrain
import DataStreams.V31.HistoryAdmission
import DataStreams.V31.ObservationWire
import DataStreams.V31.CarryForward
import DataStreams.ReportCodec.Layout
import DataStreams.ReportCodec.Streamlined
import DataStreams.V31.ReportValues
import DataStreams.ReportCodec.JSONReport
import DataStreams.Calculated.Contributions
import DataStreams.Calculated.TwapAccuracy
import DataStreams.Calculated.MovingAverage
import DataStreams.Mercury.TransmitQueue
import DataStreams.Mercury.Verifier
import DataStreams.Retirement.ReportCache
import DataStreams.Mercury.LatestReport
import DataStreams.Mercury.V3
import DataStreams.Transmitter.QueueOrder
import DataStreams.Protocol.OptsMemo
import DataStreams.Transmitter.DeleteQueue
import DataStreams.Mercury.MemCache
import DataStreams.Mercury.SingleFlight
