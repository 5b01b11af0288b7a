import FaultDesk.Candidate
import FaultDesk.Complaint.Template
import FaultDesk.Config.Basic
import FaultDesk.Datum.JsonText

/-!
What is written into a complaint about a fault, before the complaint has its number, its type and
its deadline.
-/

namespace FaultDesk

/-- The priority of a complaint by kind of alarm, in upper case. -/
def alarmPriorities : List (String × String) :=
  [("CRITICAL", "CRITICAL"), ("MAJOR", "HIGH"), ("MINOR", "MEDIUM"), ("WARN", "MEDIUM"),
    ("WARNING", "MEDIUM"), ("INFO", "LOW"), ("STATUS", "LOW"), ("LOW", "LOW")]

/-- The priority that goes with a kind of alarm; some kinds have none. -/
def alarmPriority? (kind : Option String) : Option String :=
  match kind with
  | none => none
  | some k => if k.isEmpty then none else alarmPriorities.lookup (Text.upper k)

/-- The fields of a complaint. -/
structure Draft where
  title : String
  description : String
  status : String
  priority : String
  clientId : String
  type : String
  slaStatus : Datum
  isAnonymous : Bool
  assignToTeam : Bool
  submittedOn : Stamp
  contactPhone : Datum
  contactName : Datum
  contactEmail : Datum
  wardId : Datum
  subZoneId : Datum
  submittedById : Datum
  area : Datum
  address : Datum
  /-- What was found, as JSON. -/
  tags : String
deriving Repr

namespace Draft

/-- What the placeholders of a template stand for. -/
def values (c : Candidate) : List (String × Datum) :=
  let rule := c.rule.base
  [("Description", .text (Text.orElse rule.description "Fault Detected")), ("TagNumber", .text c.tag),
    ("AlarmType", .text (Text.orElse rule.alarmKind "GENERAL")), ("Value", c.value),
    ("RtuId", .text c.unit), ("FaultCount", .int ((c.stats.map (·.matched)).getD 0)),
    ("TotalCount", .int ((c.stats.map (·.total)).getD 0)),
    ("Percent", .text ((c.stats.map (·.display)).getD "0.00"))]

/-- What a name stands for: nothing when it is unknown or its value null. -/
def textOf (values : List (String × Datum)) (name : String) : String :=
  match values.lookup name with
  | none => ""
  | some .null => ""
  | some v => v.shown

/-- The text of a template, when the values that it names can be written. -/
def filled (template : String) (values : List (String × Datum)) : Except Failure String :=
  if (Template.names template.toList).any fun name => ((values.lookup name).getD .null).hasLongWhole
  then .error .tooManyDigits
  else .ok (Template.fill template (textOf values))

/-- The finding as it stands in the complaint. -/
def finding (c : Candidate) : Datum :=
  .object [("rtuId", .text c.unit), ("tag", .text c.tag), ("rawType", .text c.rule.base.alarmKind),
    ("value", c.value)]

/-- The complaint about a fault. -/
def ofCandidate (c : Candidate) (m : ComplaintMapping) (clientId : String)
    (submittedBy : Option String) (submittedOn : Stamp) : Except Failure Draft := do
  let rule := c.rule.base
  let fixed (name : String) : Datum := (m.defaults.lookup name).getD .null
  let title ← filled m.titleTemplate (values c)
  let description ← filled m.descriptionTemplate (values c)
  let tags ← (finding c).json .shown
  return {
    title
    description
    status := m.status
    priority := Text.orElse ((alarmPriority? (some rule.alarmKind)).getD "") m.priority
    clientId
    type := Text.orElse (rule.complaintType.getD "") m.complaintType
    slaStatus := (m.defaults.lookup "slaStatus").getD (.text "ON_TIME")
    isAnonymous := (fixed "isAnonymous").holds
    assignToTeam := (fixed "assignToTeam").holds
    submittedOn
    contactPhone := fixed "contactPhone"
    contactName := fixed "contactName"
    contactEmail := fixed "contactEmail"
    wardId := fixed "wardId"
    subZoneId := fixed "subZoneId"
    submittedById := match submittedBy with
      | some s => if s.isEmpty then fixed "submittedById" else .text s
      | none => fixed "submittedById"
    area := fixed "area"
    address := fixed "address"
    tags }

/-- The fields under their written names. -/
def fields (d : Draft) : List (String × Datum) :=
  [("title", .text d.title), ("description", .text d.description), ("status", .text d.status),
    ("priority", .text d.priority), ("client_id", .text d.clientId), ("type", .text d.type),
    ("sla_status", d.slaStatus), ("is_anonymous", .truth d.isAnonymous),
    ("assign_to_team", .truth d.assignToTeam), ("submitted_on", .stamp d.submittedOn),
    ("contact_phone", d.contactPhone), ("contact_name", d.contactName),
    ("contact_email", d.contactEmail), ("ward_id", d.wardId), ("sub_zone_id", d.subZoneId),
    ("submitted_by_id", d.submittedById), ("area", d.area), ("address", d.address),
    ("tags", .text d.tags)]

end Draft

end FaultDesk
