import Telemetry.Fault
import Telemetry.Value.Text

/-!
Notices: what the library reports to its log. Failures of the monitoring service never
escape a publish cycle; they end up here.
-/

namespace Telemetry

inductive Level where
  | info | warning | error
  deriving DecidableEq, Repr

def Level.name : Level → String
  | .info => "INFO"
  | .warning => "WARNING"
  | .error => "ERROR"

/-- An event worth a line in the log. -/
inductive Notice where
  | exportDisabled
  | clientUnavailable (fault : Fault)
  | publishing (project step : Value)
  | clientNotClosed (fault : Fault)
  | noClient
  | recordsDropped (dropped total failed : Int)
  | publishFailed
  | taskFailed
  | seriesNotBuilt (meter : String) (fault : Fault)
  | descriptorNotCreated (type : String) (fault : Fault)
  | descriptorsNotListed (project : String) (fault : Fault)
  | partitionNotSent (fault : Fault)

namespace Notice

def level : Notice → Level
  | .exportDisabled | .publishing .. => .info
  | .clientUnavailable _ | .noClient => .error
  | _ => .warning

def text : Notice → String
  | .exportDisabled => "Stackdriver export is disabled"
  | .clientUnavailable fault => "Unable to create Stackdriver client: " ++ fault.message
  | .publishing project step =>
    "Publishing metrics to Stackdriver project " ++ project.render ++ " every " ++
      step.render ++ "s"
  | .clientNotClosed fault => "Failed to close Stackdriver client: " ++ fault.message
  | .noClient => "No Stackdriver client available, skipping publish"
  | .recordsDropped dropped total failed =>
    "Dropped " ++ Decimal.integer dropped ++ " of " ++ Decimal.integer total ++
      " time series (" ++ Decimal.integer failed ++ " failed requests)"
  | .publishFailed => "Unexpected exception thrown while publishing metrics"
  | .taskFailed => "Scheduled task raised an exception"
  | .seriesNotBuilt meter fault =>
    "Failed to build time series for " ++ meter ++ ": " ++ fault.message
  | .descriptorNotCreated type fault =>
    "Failed to create metric descriptor for " ++ type ++ ": " ++ fault.message
  | .descriptorsNotListed project fault =>
    "Failed to pre-populate verified descriptors for " ++ project ++ ": " ++ fault.message
  | .partitionNotSent fault => "Failed to send metrics to Stackdriver: " ++ fault.message

end Notice
end Telemetry
