import Signoff.Board.Basic

/-! # Jobs

The kept state of a job that is run every day: whether it is enabled, and how its last run went.
-/

namespace Signoff

/-- The state of a job. -/
structure Job where
  id : Int
  name : String
  description : String
  isEnabled : Bool := true
  lastRunAt : Option Moment := none
  lastStatus : Option String := none
  lastDuration : Option Int := none
  lastResult : Value := .null
  runCount : Int := 0
  failureCount : Int := 0
  lastError : Option String := none

instance : Row Job := ⟨Job.id⟩

namespace Job

/-- Is the job active or paused? -/
def state (j : Job) : String := if j.isEnabled then "active" else "paused"

/-- The job as an object. -/
def toValue (j : Job) : Value :=
  .object [("id", .int j.id), ("job_name", .text j.name), ("description", .text j.description),
    ("run_at", .text "00:00"), ("state", .text j.state), ("is_enabled", .bool j.isEnabled),
    ("last_run_at", .ofMoment? j.lastRunAt), ("last_run_status", .ofText? j.lastStatus),
    ("last_run_duration_ms", .ofInt? j.lastDuration), ("last_run_result", j.lastResult),
    ("run_count", .int j.runCount), ("failure_count", .int j.failureCount),
    ("last_error", .ofText? j.lastError)]

end Job
end Signoff
