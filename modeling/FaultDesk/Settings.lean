import FaultDesk.Datum.Basic
import FaultDesk.Number.Whole
import FaultDesk.Text.Case
import FaultDesk.Text.Listed

/-!
The settings a desk is run with, read from named texts. Three of them have to be given; the others
have a standard.
-/

namespace FaultDesk

structure Settings where
  /-- Where complaints are kept. -/
  databaseUrl : String
  /-- Where readings are kept. -/
  sourceDatabaseUrl : String
  clientId : String
  /-- Where timers and leases are kept. -/
  stateDatabaseUrl : String
  rulesPath : String
  schedule : String
  lookbackHours : Int
  leaseMinutes : Int
  logLevel : String
  logFolder : String
  dryRun : Bool
  development : Bool
  forceRun : Bool
  startScheduler : Bool
  systemUser : String
  origins : List String
deriving DecidableEq, Repr

namespace Settings

def projectName : String := "Alarm To Complaint Sync"

/-- The path in front of every route. -/
def routeRoot : String := "/api/v1"

def trueWords : List String := ["y", "yes", "t", "true", "on", "1"]

def falseWords : List String := ["n", "no", "f", "false", "off", "0"]

/-- Reads a truth; nothing written is false. -/
def truth (s : String) : Except Failure Bool :=
  let word := Text.lower s
  if s.isEmpty || falseWords.contains word then .ok false
  else if trueWords.contains word then .ok true
  else .error (.notTruth word)

/-- Reads the settings from named texts. -/
def read (given : List (String × String)) : Except Failure Settings := do
  let needed (name : String) : Except Failure String :=
    (given.lookup name).elim (.error (.missingSetting name)) .ok
  let text (name standard : String) : String := (given.lookup name).getD standard
  let whole (name : String) (standard : Int) : Except Failure Int :=
    (given.lookup name).elim (.ok standard) Whole.read
  let truthOf (name : String) (standard : Bool) : Except Failure Bool :=
    (given.lookup name).elim (.ok standard) truth
  let databaseUrl ← needed "DATABASE_URL"
  let sourceDatabaseUrl ← needed "SOURCE_DATABASE_URL"
  let clientId ← needed "CLIENT_ID"
  let lookbackHours ← whole "LOOKBACK_HOURS" 1
  let leaseMinutes ← whole "LEASE_TTL_MINUTES" 30
  let dryRun ← truthOf "DRY_RUN" false
  let development ← truthOf "IS_DEVELOPMENT" false
  let forceRun ← truthOf "FORCE_RUN" false
  let startScheduler ← truthOf "START_SCHEDULER" true
  let origins ← Text.listed (text "CORS_ORIGINS" "*")
  return {
    databaseUrl, sourceDatabaseUrl, clientId, lookbackHours, leaseMinutes, dryRun, development,
    forceRun, startScheduler, origins
    stateDatabaseUrl := text "STATE_DATABASE_URL" "sqlite:///data/fault_state.db"
    rulesPath := text "RULES_CONFIG_PATH" "sync-config.yaml"
    schedule := text "SYNC_SCHEDULE" "*/5 * * * *"
    logLevel := text "LOG_LEVEL" "INFO"
    logFolder := text "LOG_DIR" "log"
    systemUser := text "SYSTEM_USER_ID" "" }

/-- The settings under the names they are given with. -/
def fields (s : Settings) : List (String × Datum) := [
  ("PROJECT_NAME", .text projectName), ("API_V1_STR", .text routeRoot),
  ("DATABASE_URL", .text s.databaseUrl), ("SOURCE_DATABASE_URL", .text s.sourceDatabaseUrl),
  ("CLIENT_ID", .text s.clientId), ("STATE_DATABASE_URL", .text s.stateDatabaseUrl),
  ("RULES_CONFIG_PATH", .text s.rulesPath), ("SYNC_SCHEDULE", .text s.schedule),
  ("LOOKBACK_HOURS", .int s.lookbackHours), ("LEASE_TTL_MINUTES", .int s.leaseMinutes),
  ("LOG_LEVEL", .text s.logLevel), ("LOG_DIR", .text s.logFolder), ("DRY_RUN", .truth s.dryRun),
  ("IS_DEVELOPMENT", .truth s.development), ("FORCE_RUN", .truth s.forceRun),
  ("START_SCHEDULER", .truth s.startScheduler), ("SYSTEM_USER_ID", .text s.systemUser),
  ("CORS_ORIGINS", .list (s.origins.map .text))]

end Settings

end FaultDesk
