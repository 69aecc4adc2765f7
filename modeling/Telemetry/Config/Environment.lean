import Telemetry.Config.Basic
import Telemetry.Decimal.Literal
import Telemetry.Text.Case

/-!
Configurations from environment variables. A variable that is not set leaves the default;
one that does not read as a number makes the environment unreadable.
-/

namespace Telemetry

/-- The texts that switch a setting on, in any case and with blanks around. -/
def isSwitchedOn (s : String) : Bool :=
  ["true", "yes", "1", "on"].contains (Text.lower (Text.strip s))

def defaultVariableStart : String := "STACKDRIVER_"

def realSetting (default : Value) : Option String → Except Fault Value
  | none => .ok default
  | some s =>
    match Decimal.real? s with
    | some x => .ok (.float x)
    | none => .error (.config [.environmentUnreadable ""])

def integerSetting (default : Value) : Option String → Except Fault Value
  | none => .ok default
  | some s =>
    match Decimal.integer? s with
    | some n => .ok (.int n)
    | none => .error (.config [.environmentUnreadable ""])

def labelsSetting (s : String) : Except Fault Labels :=
  match Labels.ofText s with
  | .error (.integerTextTooLong _) => .error (.config [.environmentUnreadable ""])
  | labels => labels

def ExportConfig.ofEnvironment (environment : OrderedMap String String)
    (start : String) : Except Fault ExportConfig := do
  let setTo? (key : String) := environment.get? (start ++ key)
  let text (key : String) (default : Value) :=
    match setTo? key with
    | some s => .text s
    | none => default
  let base : ExportConfig := {}
  let labels ← labelsSetting ((setTo? "RESOURCE_LABELS").getD "")
  let step ← realSetting base.stepSeconds (setTo? "STEP_SECONDS")
  let batch ← integerSetting base.batchSize (setTo? "BATCH_SIZE")
  let workers ← integerSetting base.maxWorkers (setTo? "MAX_WORKERS")
  let timeout ← realSetting base.timeoutSeconds (setTo? "TIMEOUT_SECONDS")
  return {
    enabled := .bool (isSwitchedOn ((setTo? "ENABLED").getD "true"))
    projectId := text "PROJECT_ID" base.projectId
    resourceType := text "RESOURCE_TYPE" base.resourceType
    resourceLabels := labels
    stepSeconds := step
    batchSize := batch
    cumulativeEnabled := .bool (isSwitchedOn ((setTo? "CUMULATIVE_ENABLED").getD "true"))
    metricTypePrefix := text "METRIC_TYPE_PREFIX" base.metricTypePrefix
    maxWorkers := workers
    endpoint := text "ENDPOINT" base.endpoint
    timeoutSeconds := timeout }

end Telemetry
