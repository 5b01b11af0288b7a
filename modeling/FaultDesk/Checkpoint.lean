import FaultDesk.Register.Basic
import FaultDesk.Time.Iso
import FaultDesk.Time.Span

/-!
Checkpoints: up to which time the readings of a client have been looked at, kept among the settings
as an ISO stamp. What cannot be used as a past time gives way to a time a fixed span before now.
-/

namespace FaultDesk

namespace Checkpoint

/-- The key of the setting for a client. -/
def key (client : String) : String := "LAST_SYNC_TIME_" ++ client

/-- The type of the setting. -/
def settingType : String := "SYNC_STATE"

/-- The time so many hours before now. -/
def floor (lookback : Double) (now : Instant) : Except Failure Instant := do
  Span.from? now (-(← Span.hours lookback))

/-- Every `Z` becomes the offset of UTC. -/
def withOffset (s : String) : String :=
  String.ofList (s.toList.flatMap fun c => if c = 'Z' then "+00:00".toList else [c])

/-- The stamp that a setting holds. -/
def stored? (value : Option String) : Option Stamp := do
  let v ← value
  if v.isEmpty then none else Stamp.read? (withOffset v)

/-- The checkpoint of a key. A database that cannot be reached, a missing or unreadable stamp and a
time to come give the floor. -/
def get (r : Register) (key : String) (lookback : Double) (now : Instant) : Except Failure Instant :=
  match r.access with
  | .error _ => floor lookback now
  | .ok _ =>
    match stored? ((r.setting? key).bind (·.value)) with
    | none => floor lookback now
    | some s =>
      match s.instant? with
      | none => .error .timeOutOfRange
      | some t => if now < t then floor lookback now else .ok t

/-- The settings with the value of a key replaced, or a checkpoint added at the end. -/
def written (settings : List SettingRow) (key value : String) : List SettingRow :=
  match settings with
  | [] => [⟨key, some value, some settingType, true⟩]
  | s :: rest => if s.key = key then { s with value := some value } :: rest
    else s :: written rest key value

/-- Sets the checkpoint of a key, never to a time to come. Nothing is written when the database
cannot be reached. -/
def set (r : Register) (key : String) (to_ : Stamp) (now : Instant) :
    Except Failure Unit × Register :=
  match to_.instant? with
  | none => (.error .timeOutOfRange, r)
  | some t =>
    match r.access with
    | .error _ => (.ok (), r)
    | .ok _ =>
      (.ok (), { r with settings := written r.settings key (Stamp.utc (min t now)).text })

end Checkpoint

end FaultDesk
