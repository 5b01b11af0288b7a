import FaultDesk.Schedule.Scheduler
import FaultDesk.Settings
import FaultDesk.Sync.Desk
import FaultDesk.Web.LogFolder

/-!
The service: requests to run the desk and to ask how it stands, to read and replace the rules, and to
read log files. The desk is wired up at the first request that needs it.
-/

namespace FaultDesk

structure Service where
  settings : Settings
  desk : Desk
  rulesFile : Option (List UInt8)
  logs : LogFolder
  /-- Its job is there once the desk has been wired up. -/
  scheduler : Scheduler Unit
  /-- The tables of the state database. -/
  stateTables : List String

namespace Service

/-- The tables that timers and leases are kept in. -/
def stateTableNames : List String := ["debounce_state", "run_lease"]

/-- The last name of a path. -/
def lastName (path : String) : String := ((path.splitOn "/").getLast?).getD ""

/-- The service that settings describe, with an empty folder of log files. -/
def ofSettings (s : Settings) (now : Instant) (readings : Readings) (register : Register) : Service where
  settings := s
  desk := {
    now, readings, register
    rules := .error .missing
    rulesPath := s.rulesPath
    downParts := []
    refusals := 0
    submittedBy := some s.systemUser
    lookback := Double.ofInt s.lookbackHours
    timers := .empty true
    leases := .empty
    lease := .fresh ("sync-" ++ s.clientId) 0
    dryRun := s.dryRun
    development := s.development
    audit := []
    last := none }
  rulesFile := none
  logs := ⟨lastName s.logFolder, []⟩
  scheduler := .idle
  stateTables := []

/-- The service with its desk wired up. -/
def wired (s : Service) : Except Failure Service := do
  if s.scheduler.job.isSome then return s
  let ttl ← Span.minutes (Double.ofInt s.settings.leaseMinutes)
  return { s with
    desk := { s.desk with lease := { s.desk.lease with ttl } }
    scheduler := { s.scheduler with job := some () }
    stateTables := stateTableNames }

/-- One run of the desk by the rules in the file. -/
def runDesk (s : Service) : Except Failure RunReport × Service :=
  match s.wired with
  | .error f => (.ok (.failedAt s.desk.now f.message), { s with stateTables := stateTableNames })
  | .ok s =>
    let (report, desk) := ({ s.desk with rules := Config.load s.rulesFile } : Desk).run
    (report, { s with desk })

def reportBody (r : RunReport) : Datum := .object (r.fieldsWith fun i => (Stamp.utc i).textZ)

/-- How the desk stands. -/
def status (s : Service) : Except Failure Datum := do
  let d := s.desk
  let checkpoint ← Checkpoint.get d.register d.runKey d.lookback d.now
  return .object [("last_run", (d.last.map reportBody).getD .null),
    ("checkpoint", .text (Stamp.utc checkpoint).textZ), ("dry_run", .truth d.dryRun),
    ("development", .truth d.development)]

/-- The rules as they stand in the file. -/
def rulesAnswer (s : Service) : Except Failure Response := do
  match Config.load s.rulesFile with
  | .ok c => return .good (← c.layout true)
  | .error .missing => return .refusal 404 (FileFault.missing.message s.desk.rulesPath)
  | .error (.failed f) => .error f
  | .error f => return .refusal 500 (f.message s.desk.rulesPath)

/-- Replaces the rules. -/
def replaceRules (s : Service) (raw : Datum) : Except Failure Response × Service :=
  let (r, written) := Config.save raw none
  let s := match written with
    | some text => { s with rulesFile := some text.toUTF8.toList }
    | none => s
  (match r with
    | .ok c => (c.layout true).map fun l => .good (.object [("success", .truth true), ("config", l)])
    | .error (.failed f) => .error f
    | .error f => .ok (.refusal 400 (f.message s.desk.rulesPath)), s)

/-- The answer to new rules: they have to be a mapping. -/
def rulesRequest (s : Service) (body : Option Datum) : Except Failure Response × Service :=
  let unfit (cause : Defect.Cause) : Except Failure Response := .ok (.unfit [⟨[.field "body"], cause⟩])
  match body with
  | none | some .null => (unfit .missing, s)
  | some (.mapping es) =>
    if (Datum.mapping es).allFinite then s.replaceRules (.mapping es) else (.error .notFiniteJson, s)
  | some _ => (unfit .notMapping, s)

/-- The paths that are known, without the root, and the methods each is for. -/
def routes : List (String × List String) :=
  [("/config", ["GET", "POST"]), ("/sync/run", ["POST"]), ("/sync/status", ["GET"]),
    ("/logs/files", ["GET"]), ("/logs", ["GET"])].map (fun (p, ms) => (Settings.routeRoot ++ p, ms)) ++
  [("/health/db", ["GET"])]

/-- The path without slashes at its end, where that is the one that is known. -/
def routePath (path : String) : String :=
  if routes.any (·.1 == path) then path
  else String.ofList (path.toList.reverse.dropWhile (· == '/')).reverse

/-- The answer to a request whose path and method are known. -/
def serve (s : Service) (r : Request) (path : String) : Except Failure Response × Service :=
  if path == "/health/db" then (.ok (.good (.object [("status", .text "ok")])), s)
  else if path == Settings.routeRoot ++ "/sync/run" then
    let (report, s) := s.runDesk
    (report.map fun r => .good (reportBody r), s)
  else if path == Settings.routeRoot ++ "/sync/status" then
    match s.wired with
    | .error f => (.error f, { s with stateTables := stateTableNames })
    | .ok s => (s.status.map .good, s)
  else if path == Settings.routeRoot ++ "/config" then
    if Text.upper r.method == "GET" then (s.rulesAnswer, s) else s.rulesRequest r.body
  else if path == Settings.routeRoot ++ "/logs/files" then (.ok s.logs.listing, s)
  else (s.logs.tailing r, s)

/-- Answers a request. What is not finite cannot be sent. -/
def answer (s : Service) (r : Request) : Except Failure Response × Service :=
  let path := routePath r.path
  match routes.lookup path with
  | none => (.ok (.refusal 404 "Not Found"), s)
  | some methods =>
    if methods.contains (Text.upper r.method) then
      let (a, s) := s.serve r path
      (a >>= fun a => if a.body.allFinite then .ok a else .error .notFiniteJson, s)
    else (.ok (.refusal 405 "Method Not Allowed"), s)

/-- Starts the service: the scheduler, if it is to be started, and a first run, if that is wanted.
Whether the scheduler runs. -/
def startup (s : Service) : Except Failure Bool × Service :=
  let s := { s with stateTables := stateTableNames }
  if s.settings.startScheduler then
    match s.scheduler.start s.settings.schedule none with
    | (.error f, scheduler) => (.error f, { s with scheduler })
    | (.ok _, scheduler) =>
      let s := { s with scheduler }
      if s.settings.forceRun then
        let (report, s) := s.runDesk
        (report.map fun _ => s.scheduler.isRunning, s)
      else (.ok s.scheduler.isRunning, s)
  else (.ok s.scheduler.isRunning, s)

/-- Ends the service; whether the scheduler is gone. -/
def shutdown (s : Service) : Bool × Service :=
  let s := { s with scheduler := s.scheduler.shutdown }
  (!s.scheduler.isRunning, s)

end Service

end FaultDesk
