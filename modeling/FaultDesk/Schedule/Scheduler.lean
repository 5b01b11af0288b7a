import FaultDesk.Schedule.Cron
import FaultDesk.Sync.Report

/-!
The scheduler: it runs one job by a schedule, at most one run at a time. Starting it again while it
runs changes nothing but the job.
-/

namespace FaultDesk

/-- A scheduler of a job. Each time it starts to run it has a handle with a number of its own. -/
structure Scheduler (Job : Type) where
  job : Option Job
  /-- The handle, while the scheduler runs. -/
  handle : Option Nat
  /-- How many handles there have been. -/
  handles : Nat
deriving Repr

namespace Scheduler

variable {Job : Type}

def idle : Scheduler Job := ⟨none, none, 0⟩

def isRunning (s : Scheduler Job) : Bool := s.handle.isSome

/-- Starts by a schedule and gives the handle. A new job is taken even where the schedule is refused. -/
def start (s : Scheduler Job) (schedule : String) (job : Option Job) :
    Except Failure Nat × Scheduler Job :=
  let s := { s with job := job.orElse fun _ => s.job }
  match Cron.ofText schedule with
  | .error f => (.error f, s)
  | .ok _ =>
    match s.handle with
    | some n => (.ok n, s)
    | none => (.ok s.handles, { s with handle := some s.handles, handles := s.handles + 1 })

/-- Stops; the job stays. -/
def shutdown (s : Scheduler Job) : Scheduler Job := { s with handle := none }

/-- Runs the job now. Where there is none it is built; if that fails, so does the run. -/
def runOnce (s : Scheduler Job) (build : Except String Job) (now : Instant)
    (run : Job → RunReport × Job) : RunReport × Scheduler Job :=
  match s.job.elim build .ok with
  | .error e => (.failedAt now e, s)
  | .ok job =>
    let (report, job) := run job
    (report, { s with job := some job })

end Scheduler

end FaultDesk
