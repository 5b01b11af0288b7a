import FaultDesk.Config.Basic
import FaultDesk.Datum.Plain
import FaultDesk.Datum.Same

/-!
A configuration as a plain document, with every field under its written name and every default
filled in. Fields that are null may be left out.
-/

namespace FaultDesk

/-- An entry that is left out when it has no value, unless nulls are wanted. -/
def entryOrNull (nulls : Bool) (name : String) (v : Option Datum) : List (String × Datum) :=
  match v with
  | some d => [(name, d)]
  | none => if nulls then [(name, .null)] else []

namespace Duration

def layout (d : Duration) : Datum :=
  .object [("amount", .float d.amount), ("unit", .text d.unit.letter), ("mode", .text d.mode.name)]

end Duration

namespace Prerequisite

def layout (nulls : Bool) (p : Prerequisite) : Datum :=
  .object ([("tag", .text p.tag), ("value", p.value.datum), ("condition", .text p.condition.name)] ++
    entryOrNull nulls "table" (p.table.map .text))

end Prerequisite

namespace AnyRule

def layout (nulls : Bool) (r : AnyRule) : Datum :=
  let b := r.base
  .object ([("tag", .text b.tag), ("condition", .text b.condition.name),
      ("value", b.threshold.datum), ("description", .text b.description),
      ("alarmType", .text b.alarmKind), ("enabled", .truth b.enabled)] ++
    entryOrNull nulls "table" (b.table.map .text) ++
    entryOrNull nulls "prerequisite" (b.prerequisite.map (·.layout nulls)) ++
    entryOrNull nulls "duration" (b.duration.map (·.layout)) ++
    entryOrNull nulls "complaintType" (b.complaintType.map .text) ++
    entryOrNull nulls "faultType" (b.faultType.map .text) ++
    [("kind", .text r.kind)] ++
    match r with
    | .simple _ => []
    | .rate x => [("thresholdPercent", .float x.thresholdPercent), ("windowHours", .float x.windowHours)]
    | .master x => [("priority", .int x.priority)])

end AnyRule

namespace RuleGroup

def layout (nulls : Bool) (g : RuleGroup) : Datum :=
  .object ([("enabled", .truth g.enabled)] ++
    entryOrNull nulls "description" (g.description.map .text) ++
    [("rules", .list (g.rules.map (·.any.layout nulls)))])

end RuleGroup

namespace ComputedFaults

def layout (f : ComputedFaults) : Datum :=
  let c := f.communication
  let p := f.power
  .object [
    ("communication", .object [("enabled", .truth c.enabled), ("tag", .text c.tag),
      ("staleHours", .float c.staleHours), ("analogSilenceHours", .float c.analogSilenceHours),
      ("decommissionHours", .float c.decommissionHours)]),
    ("power", .object [("enabled", .truth p.enabled), ("tag", .text p.tag),
      ("lookbackMinutes", .float p.lookbackMinutes)])]

end ComputedFaults

namespace ComplaintMapping

def layout (m : ComplaintMapping) (defaults : Datum) : Datum :=
  .object [("titleTemplate", .text m.titleTemplate), ("descriptionTemplate", .text m.descriptionTemplate),
    ("defaultPriority", .text m.priority), ("defaultStatus", .text m.status),
    ("defaultComplaintType", .text m.complaintType), ("defaults", defaults)]

end ComplaintMapping

namespace Config

/-- The document with given fixed fields of complaints. -/
def layoutWith (nulls : Bool) (c : Config) (defaults : Datum) : Datum :=
  .object [
    ("ruleSets", .object [("diRules", c.ruleSets.digital.layout nulls),
      ("aiRules", c.ruleSets.analog.layout nulls)]),
    ("masterRules", .list (c.masterRules.map fun r => (AnyRule.master r).layout nulls)),
    ("winnerPolicy", .text c.winnerPolicy.name),
    ("closedStatuses", .list (c.closedStatuses.map .text)),
    ("computedFaults", c.computedFaults.layout),
    ("cmsMapping", c.complaints.layout defaults)]

/-- The whole document; it fails when a fixed field of complaints holds octets that are no text. -/
def layout (nulls : Bool) (c : Config) : Except Failure Datum := do
  return c.layoutWith nulls (← (Datum.object c.complaints.defaults).plain)

/-- Whether two configurations say the same, field by field. -/
def same (a b : Config) : Bool :=
  (a.layoutWith true (.object a.complaints.defaults)).same
    (b.layoutWith true (.object b.complaints.defaults))

end Config

end FaultDesk
