import Telemetry.Series.Kind

/-!
Metric descriptors: the schema that the monitoring service has for a metric type.
-/

namespace Telemetry

structure MetricDescriptor where
  type : String
  kind : MetricKind
  valueType : ValueType
  description : String := ""
  deriving DecidableEq, Repr

def MetricDescriptor.toValue (d : MetricDescriptor) : Value :=
  .ofFields [
    ("type", .text d.type),
    ("description", .text d.description),
    ("metricKind", .text d.kind.name),
    ("valueType", .text d.valueType.name)]

end Telemetry
