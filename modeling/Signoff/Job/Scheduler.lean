import Signoff.Calendar.Duration
import Signoff.Job.Registry

/-! # Running jobs

Jobs are run by name, or all of them one after another, each in a session of its own. A job that is
disabled is not run. How a run went is written into the row of the job, if it has one: the rows are made
for jobs that lack one.

Writing down how a run went is taken to succeed: the result of a job is a value of JSON, and the store takes
the row together with what the job has left to be stored. A run that could not be written down would be
rolled back and not counted.
-/

namespace Signoff.Scheduler

/-- How a run went. -/
inductive Outcome where
  /-- There is no job of the name, or nothing to run it in. -/
  | refused (reason : String)
  | skipped
  | succeeded (result : Value)
  | failed (reason : String)

namespace Outcome

/-- The outcome of the job of a name as an object. -/
def toValue (name : String) : Outcome → Value
  | .refused reason =>
    .object [("job_name", .text name), ("status", .text "error"), ("error", .text reason)]
  | .skipped => finished "skipped" .null .null
  | .succeeded result => finished "success" result .null
  | .failed reason => finished "failed" .null (.text reason)
where
  /-- The outcome of a run that was looked into. -/
  finished (status : String) (result error : Value) : Value :=
    .object [("job_name", .text name), ("status", .text status), ("duration_ms", .int 0),
      ("result", result), ("error", error)]

end Outcome

/-- The row of a job. -/
def row? (o : Office) (name : String) : Option Job := o.jobs.rows.find? fun j => j.name == name

/-- A result the way it is kept: an object as it is, anything else as its text. -/
def keptResult : Value → Value
  | .object fields => .object fields
  | v => .object [("output", .text v.display)]

/-- The row of a job after a run. -/
def recorded (now : Moment) (j : Job) : Outcome → Job
  | .succeeded result =>
    { j with
      lastRunAt := some now
      lastStatus := some "success"
      lastDuration := some 0
      lastResult := keepEqual j.lastResult (keptResult result)
      runCount := j.runCount + 1 }
  | .failed reason =>
    { j with
      lastRunAt := some now
      lastStatus := some "failed"
      lastDuration := some 0
      lastResult := keepEqual j.lastResult (keptResult .null)
      runCount := j.runCount + 1
      failureCount := j.failureCount + 1
      lastError := if reason.isEmpty then none else some reason }
  | _ => j

/-- The office after a run, with the row of the job written. -/
def recording (o : Office) (j : Job) (outcome : Outcome) : Office :=
  { o with jobs := o.jobs.modify j.id fun row => recorded o.clock row outcome }

/-- Writes how a run went into the row of the job, and stores it together with what the job left to be
stored. -/
def record (name : String) (outcome : Outcome) : SessionTask Unit := do
  match row? (← get).seen.office name with
  | some j =>
    Session.draft (Site.within (modify fun o => recording o j outcome))
    Session.commit
  | none => pure ()

/-- Does the work of a job. What a job that fails has not stored is lost. -/
def perform (job : RegisteredJob) : SessionTask Outcome := do
  match ← Task.attempt job.work with
  | .ok result => pure (.succeeded result)
  | .error fault =>
    Session.rollback
    pure (.failed fault.text)

/-- Runs a job, unless it is disabled. -/
def runJob (job : RegisteredJob) : SessionTask Outcome := do
  if (row? (← get).seen.office job.name).any fun j => !j.isEnabled then pure .skipped
  else
    let outcome ← perform job
    record job.name outcome
    pure outcome

/-- Runs the job of a name. -/
def run (registry : Registry) (ready : Bool) (name : String) : SiteTask Outcome := do
  match registry.find? name with
  | none => pure (.refused ("Unknown job: " ++ name))
  | some job =>
    if !ready then pure (.refused "Scheduler not initialized")
    else Session.within (runJob job)

/-- Runs every job in the order of registration, and tells how each run went. -/
def runAll (registry : Registry) (ready : Bool) : SiteTask Value := do
  let outcomes ← registry.mapM fun job => do
    pure ((← run registry ready job.name).toValue job.name)
  pure (.list outcomes)

/-- Makes rows for the jobs that lack one, and gives back their names. -/
def ensureRows (registry : Registry) : SiteTask (List String) := do
  let known := (← get).office.jobs.rows.map (·.name)
  let missing := List.filter (fun job : RegisteredJob => !known.contains job.name) registry
  missing.forM fun job => Site.within (modify fun o =>
    { o with jobs := o.jobs.add fun id =>
      { id, name := job.name, description := job.description } })
  pure (missing.map (·.name))

/-- The jobs with their rows. -/
def listing (registry : Registry) (o : Office) : Value :=
  .list (List.map (fun job : RegisteredJob =>
    .object [("job_name", .text job.name),
      ("db_record", ((row? o job.name).map Job.toValue).getD .null)]) registry)

/-- Enables a job or disables it, and gives back its row. -/
def setEnabled (name : String) (isEnabled : Bool) : SiteTask (Option Job) := do
  match row? (← get).office name with
  | none => pure none
  | some j =>
    let changed := { j with isEnabled }
    Site.within (modify fun o => { o with jobs := o.jobs.modify j.id fun _ => changed })
    pure (some changed)

/-- The pass of every day: rows for new jobs, and a run of every job. -/
def dailyPass (registry : Registry) : SiteTask Unit := do
  discard (ensureRows registry)
  discard (runAll registry true)

end Signoff.Scheduler

/-! # The daily loop

The loop makes a pass when it is started, and another one at every midnight, until it is stopped. A
pass that fails yields nothing and does not end the loop.
-/

namespace Signoff

/-- The loop: whether it runs, and how many passes it has made. -/
structure DailyLoop where
  isRunning : Bool := false
  passes : Int := 0

namespace DailyLoop

/-- Starts the loop, unless it runs already. -/
def start (l : DailyLoop) : DailyLoop :=
  if l.isRunning then l else { isRunning := true, passes := l.passes + 1 }

/-- Stops the loop. -/
def stop (l : DailyLoop) : DailyLoop := { l with isRunning := false }

/-- Starts the loop twice and stops it, so many times. Gives the loop and whether it ran, at first, and
after the starts and the stop of each time. -/
def cycles : Nat → DailyLoop → DailyLoop × List Bool
  | 0, l => (l, [l.isRunning])
  | n + 1, l =>
    let (before, seen) := cycles n l
    let started := before.start.start
    let stopped := started.stop
    (stopped, seen ++ [started.isRunning, stopped.isRunning])

/-- What a pass yields: its result, or nothing if it failed. -/
def passResult (result : Result Value) : Value :=
  match result with
  | .ok v => v
  | .error _ => .list []

/-- The seconds until the next midnight. -/
def secondsUntilMidnight (now : Moment) : Result Float := do
  let next ← now.plus Moment.dayMicros
  pure (Duration.seconds (now.between (Moment.ofDate next.date)))

end DailyLoop
end Signoff
