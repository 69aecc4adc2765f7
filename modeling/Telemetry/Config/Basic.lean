import Telemetry.Config.Labels
import Telemetry.Value.Number

/-!
The configuration of an export. Settings other than the labels are kept as the values they
were given, so that a wrong one shows where it is used.

- `ExportConfig.ofMap`: the configuration of a mapping; keys that name no setting are
  ignored.
- `ExportConfig.toMap`: the mapping of all settings.
- `ExportConfig.problems`: everything wrong with a configuration; comparing a setting that
  is no number is an error of its own.
-/

namespace Telemetry

def seriesPerRequest : Int := 200

/-- The settings of an export.

- `enabled`: whether starting an exporter starts publishing.
- `projectId`: the project that the metrics are written to.
- `resourceType`, `resourceLabels`: the monitored resource of every time series.
- `stepSeconds`: the time between publish cycles.
- `batchSize`: how many time series one request may hold, see `seriesPerRequest`.
- `cumulativeEnabled`: if off, every record is a gauge.
- `metricTypePrefix`: what every metric type starts with.
- `maxWorkers`: how many requests may be under way at once.
- `endpoint`, `timeoutSeconds`: where requests go, and how long one may take. -/
structure ExportConfig where
  enabled : Value := .bool true
  projectId : Value := .text ""
  resourceType : Value := .text "global"
  resourceLabels : Labels := .empty
  stepSeconds : Value := .float 60
  batchSize : Value := .int 10000
  cumulativeEnabled : Value := .bool true
  metricTypePrefix : Value := .text "custom.googleapis.com/"
  maxWorkers : Value := .int 1
  endpoint : Value := .text "https://monitoring.googleapis.com"
  timeoutSeconds : Value := .float 30

namespace ExportConfig

instance : Inhabited ExportConfig := ⟨{}⟩

def partitionSize (c : ExportConfig) : Except Fault Value := c.batchSize.minWith seriesPerRequest

def projectName (c : ExportConfig) : String := "projects/" ++ c.projectId.render

def stepMillis (c : ExportConfig) : Except Fault Int := c.stepSeconds.thousandfold

def positiveProblem (setting : PositiveSetting) (v : Value) :
    Except Fault (List ConfigProblem) :=
  (v.atMost 0).map fun bad => if bad then [.notPositive setting] else []

def problems (c : ExportConfig) : Except Fault (List ConfigProblem) := do
  let project := if c.enabled.truthy && !c.projectId.truthy then [.projectMissing] else []
  let step ← positiveProblem .step c.stepSeconds
  let batch ← positiveProblem .batch c.batchSize
  let workers ← positiveProblem .workers c.maxWorkers
  let timeout ← positiveProblem .timeout c.timeoutSeconds
  let resource := if !c.resourceType.truthy then [.resourceTypeEmpty] else []
  return project ++ step ++ batch ++ workers ++ timeout ++ resource

def validate (c : ExportConfig) : Except Fault Unit := do
  let problems ← c.problems
  if problems = [] then .ok () else .error (.config problems)

def ofMap (entries : List (Value × Value)) : Except Fault ExportConfig := do
  let setting (key : String) (default : Value) := (Value.entry? key entries).getD default
  let labels ←
    match Value.entry? "resource_labels" entries with
    | some v => Labels.ofValue v
    | none => .ok .empty
  let base : ExportConfig := {}
  return {
    enabled := setting "enabled" base.enabled
    projectId := setting "project_id" base.projectId
    resourceType := setting "resource_type" base.resourceType
    resourceLabels := labels
    stepSeconds := setting "step_seconds" base.stepSeconds
    batchSize := setting "batch_size" base.batchSize
    cumulativeEnabled := setting "cumulative_enabled" base.cumulativeEnabled
    metricTypePrefix := setting "metric_type_prefix" base.metricTypePrefix
    maxWorkers := setting "max_workers" base.maxWorkers
    endpoint := setting "endpoint" base.endpoint
    timeoutSeconds := setting "timeout_seconds" base.timeoutSeconds }

def ofValue : Value → Except Fault ExportConfig
  | .map entries => ofMap entries
  | v => .error (.noAttribute v.shape "items")

def toMap (c : ExportConfig) : List (Value × Value) := [
  (.text "enabled", c.enabled),
  (.text "project_id", c.projectId),
  (.text "resource_type", c.resourceType),
  (.text "resource_labels",
    .ofFields (c.resourceLabels.entries.map fun l => (l.1, .text l.2))),
  (.text "step_seconds", c.stepSeconds),
  (.text "batch_size", c.batchSize),
  (.text "cumulative_enabled", c.cumulativeEnabled),
  (.text "metric_type_prefix", c.metricTypePrefix),
  (.text "max_workers", c.maxWorkers),
  (.text "endpoint", c.endpoint),
  (.text "timeout_seconds", c.timeoutSeconds)]

end ExportConfig
end Telemetry
