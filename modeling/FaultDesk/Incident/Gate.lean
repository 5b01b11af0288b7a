import FaultDesk.Candidate
import FaultDesk.Config.Basic

/-!
Suppressing faults that are known already: a fault is let through unless the latest incident of its
unit and tag has an open complaint. A failed look-up lets it through.
-/

namespace FaultDesk

/-- The latest fault of a unit and tag, with its complaint if there is one. -/
structure Incident where
  faultId : Int
  complaintId : Option String
  status : Option String
deriving DecidableEq, Repr

/-- The statuses, in upper case, that count as closed; the usual ones when none are named. -/
def closedSet (named : List String) : List String :=
  if named.isEmpty then Config.closedByDefault else named.map Text.upper

namespace Incident

/-- Whether an incident has a complaint that is not closed. -/
def isOpen (closed : List String) (i : Incident) : Bool :=
  i.complaintId.isSome && !closed.contains (Text.upper (i.status.getD ""))

end Incident

/-- The open incident that a look-up finds, if any; it stops a fault. -/
def openIncident? (closed : List String) (found : Except Failure (Option Incident)) :
    Option Incident :=
  match found with
  | .ok (some i) => if i.isOpen closed then some i else none
  | _ => none

namespace Candidate

/-- The record of a fault that is stopped by an incident. -/
def suppression (c : Candidate) (i : Incident) : List (String × Datum) :=
  [("reason", .text "Active Complaint Exists"), ("unit_id", .text c.unit), ("tag", .text c.tag),
    ("existing_complaint_id", .ofText? i.complaintId), ("status", .ofText? i.status),
    ("value", c.value)]

end Candidate

end FaultDesk
