import FaultDesk.Datum.Column
import FaultDesk.Incident.Gate

/-!
The register of complaints: tables of complaint types, settings, faults, complaints and the log of
their statuses. Rows stand in order of their numbers.
-/

namespace FaultDesk

structure TypeRow where
  id : Nat
  name : String
  slaHours : Option Int
  priority : Option String
deriving DecidableEq, Repr

structure SettingRow where
  key : String
  value : Option String
  type : Option String
  isActive : Bool
deriving DecidableEq, Repr

structure FaultRow where
  id : Nat
  unit : String
  tag : String
  value : Option String
  time : Instant
  source : Option String
deriving DecidableEq, Repr

structure ComplaintRow where
  id : Nat
  number : String
  status : String
  /-- The fault the complaint is about. -/
  faultId : Option Int
  /-- The other columns. -/
  details : List (String × Datum)
deriving Repr

structure LogRow where
  id : Nat
  complaintId : Nat
  userId : Option String
  fromStatus : Option String
  toStatus : String
  comment : Option String
deriving DecidableEq, Repr

structure Register where
  types : List TypeRow
  settings : List SettingRow
  faults : List FaultRow
  complaints : List ComplaintRow
  logs : List LogRow
  /-- Why the database cannot be reached, if it cannot. -/
  down : Option Failure
deriving Repr

namespace Register

def empty : Register := ⟨[], [], [], [], [], none⟩

instance : Inhabited Register := ⟨empty⟩

/-- Whether tables can be looked at. -/
def access (r : Register) : Except Failure Unit :=
  match r.down with
  | some f => .error f
  | none => .ok ()

/-- The number of the next row behind rows of these numbers. -/
def nextId (ids : List Nat) : Nat := (ids.foldl max 0) + 1

def nextFaultId (r : Register) : Nat := nextId (r.faults.map (·.id))

def nextComplaintId (r : Register) : Nat := nextId (r.complaints.map (·.id))

def nextLogId (r : Register) : Nat := nextId (r.logs.map (·.id))

def nextTypeId (r : Register) : Nat := nextId (r.types.map (·.id))

/-- The setting of a key. -/
def setting? (r : Register) (key : String) : Option SettingRow := r.settings.find? (·.key == key)

/-- The latest fault of a unit and tag. -/
def latestFault? (r : Register) (unit tag : String) : Option FaultRow :=
  r.faults.reverse.find? fun f => f.unit == unit && f.tag == tag

/-- The first complaint about a fault. -/
def complaintOf? (r : Register) (faultId : Nat) : Option ComplaintRow :=
  r.complaints.find? (·.faultId == some (faultId : Int))

/-- The latest fault of a unit and tag with its complaint. -/
def latestIncident? (r : Register) (unit tag : String) : Option Incident :=
  (r.latestFault? unit tag).map fun f =>
    match r.complaintOf? f.id with
    | some c => ⟨f.id, some c.number, some c.status⟩
    | none => ⟨f.id, none, none⟩

/-- The look-up of the latest incident. -/
def find (r : Register) (unit tag : String) : Except Failure (Option Incident) := do
  r.access
  return r.latestIncident? unit tag

/-- The register with the status of a complaint changed. -/
def withStatus (r : Register) (number status : String) : Register :=
  { r with complaints := r.complaints.map fun c =>
      if c.number = number then { c with status } else c }

end Register

namespace FaultRow

/-- The columns that are not null, under their written names. -/
def fields (f : FaultRow) : List (String × Datum) :=
  [("id", .int f.id), ("rtu_number", .text f.unit), ("tag_no", .text f.tag),
    ("tag_value", .ofText? f.value), ("event_time", .stamp (.naive f.time)),
    ("source_type", .ofText? f.source)]

end FaultRow

namespace ComplaintRow

/-- The columns under their written names. -/
def fields (c : ComplaintRow) : List (String × Datum) :=
  [("id", .int c.id), ("complaint_id", .text c.number), ("status", .text c.status),
    ("slms_ref", (c.faultId.map Datum.int).getD .null)] ++ c.details

/-- The value of a column. -/
def detail (c : ComplaintRow) (name : String) : Datum := (c.details.lookup name).getD .null

end ComplaintRow

namespace LogRow

/-- The columns under their written names. -/
def fields (l : LogRow) : List (String × Datum) :=
  [("id", .int l.id), ("complaint_id", .int l.complaintId), ("user_id", .ofText? l.userId),
    ("from_status", .ofText? l.fromStatus), ("to_status", .text l.toStatus),
    ("comment", .ofText? l.comment)]

end LogRow

end FaultDesk
