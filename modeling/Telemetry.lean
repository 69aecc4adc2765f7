import Telemetry.Binary64.Arithmetic
import Telemetry.Binary64.Bits
import Telemetry.Decimal.Literal
import Telemetry.Decimal.Shortest
import Telemetry.Fault
import Telemetry.OrderedMap
import Telemetry.Value.Text
import Telemetry.Timestamp
import Telemetry.Meter.Registry
import Telemetry.Notice
import Telemetry.Series.Descriptor
import Telemetry.Series.Record
import Telemetry.Document.Json
import Telemetry.Document.Toml
import Telemetry.Document.Yaml
import Telemetry.Config.Environment
import Telemetry.Config.File
import Telemetry.Backend.Memory
import Telemetry.Backend.Rest
import Telemetry.Backend.DescriptorCache
import Telemetry.Exporter
import Telemetry.Document.Yaml.Node
import Telemetry.Proofs.Binary64.Exactness
import Telemetry.Proofs.Value.Number
import Telemetry.Proofs.Series.Distribution
import Telemetry.Proofs.Binary64.Sorted
import Telemetry.Proofs.Meter.StepHistogram
import Telemetry.Proofs.Meter.Bucketing
import Telemetry.Proofs.Backend.Agreement
import Telemetry.Proofs.Backend.Listing
import Telemetry.Proofs.Exporter.Windows
import Telemetry.Proofs.Exporter.Conservation
import Telemetry.Proofs.Series.Obstacles
import Telemetry.Proofs.Series.FiniteNumbers
import Telemetry.Proofs.Series.WellFormed
import Telemetry.Proofs.Series.Separation
import Telemetry.Proofs.Backend.Steady
import Telemetry.Proofs.Series.Reordering
import Telemetry.Proofs.Publication.Audit
import Telemetry.Proofs.Calendar
import Telemetry.Proofs.Decimal.Digits
import Telemetry.Proofs.Decimal.ShortFixed
import Telemetry.Proofs.Exporter.Containment
import Telemetry.Proofs.Timestamp
import Telemetry.Proofs.Series.WireForm
import Telemetry.Proofs.Series.GaugesOnly
import Telemetry.Proofs.Exporter.Lifecycle
import Telemetry.Proofs.Backend.Concurrency
import Telemetry.Proofs.Schedule.Workers
import Telemetry.Proofs.Series.FiniteRows
import Telemetry.Proofs.Meter.Percentiles
import Telemetry.Proofs.Meter.FunctionMeters
import Telemetry.Proofs.Meter.LongTasks
import Telemetry.Proofs.Meter.Registration
import Telemetry.Proofs.Meter.Canonical
import Telemetry.Proofs.Config.Runnable
import Telemetry.Proofs.Exporter.IntervalOrder
import Telemetry.Proofs.Timestamp.Reading
import Telemetry.Proofs.Config.LabelText
import Telemetry.Proofs.Document.Json
import Telemetry.Proofs.Config.Environment
import Telemetry.Proofs.Binary64.Whole
import Telemetry.Proofs.Schedule.Cadence
import Telemetry.Proofs.Config.Settings
import Telemetry.Proofs.Config.Files
import Telemetry.Proofs.Backend.Replies
