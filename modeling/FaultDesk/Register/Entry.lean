import FaultDesk.Complaint.Draft
import FaultDesk.Register.TypeSearch
import FaultDesk.Time.Span

/-!
Entering a fault: the fault, its complaint and the first status of the complaint are written
together or not at all.
-/

namespace FaultDesk

/-- Why a fault is not entered. -/
inductive EntryFault where
  /-- No number is free for the complaint. -/
  | noNumber
  /-- A value or the database refuses what is to be written. -/
  | refused (unit tag : String) (cause : Failure)
  /-- Something else stops the entry. -/
  | failed (cause : Failure)
deriving DecidableEq, Repr

namespace EntryFault

def message : EntryFault → String
  | noNumber => s!"Failed to generate unique complaint ID after {Numbering.attempts} attempts"
  | refused unit tag cause =>
    s!"Could not persist fault for RTU {unit} tag {tag}: " ++ cause.message
  | failed cause => cause.message

/-- The fault of an entry that a failure stops. -/
def ofFailure (c : Candidate) (f : Failure) : EntryFault :=
  if f.isValue || f.isDatabase then refused c.unit c.tag f else failed f

end EntryFault

/-- What the clerk who enters faults goes by. -/
structure Clerk where
  mapping : ComplaintMapping
  clientId : String
  submittedBy : Option String
deriving Repr

namespace Clerk

/-- The clerk's name for the log; an empty one is none. -/
def user (k : Clerk) : Option String := k.submittedBy.filter (!·.isEmpty)

end Clerk

namespace Register

/-- When a complaint of a type is due. -/
def deadline (now : Instant) (type : Option ComplaintType) : Except Failure Instant := do
  let hours := (type.map (·.slaHours)).getD ComplaintType.defaultHours
  Span.from? now (← Span.hours hours)

/-- The columns of a complaint, in the order in which they are written. -/
def columns (d : Draft) (type : Option ComplaintType) (deadline : Instant) :
    List (String × Datum) :=
  let field (name : String) : Datum := (d.fields.lookup name).getD .null
  let same (names : List String) : List (String × Datum) := names.map fun n => (n, field n)
  same ["title", "description", "priority", "client_id"] ++
    [("type", match type with
      | some t => t.name
      | none => .text d.type),
    ("complaint_type_id", match type.bind (·.id) with
      | some n => .int n
      | none => .null)] ++
    same ["sla_status", "is_anonymous", "assign_to_team", "submitted_on"] ++
    [("deadline", .stamp (.utc deadline))] ++
    same ["contact_phone", "contact_name", "contact_email", "ward_id", "sub_zone_id",
      "submitted_by_id", "area", "address", "tags"]

/-- What a column of a complaint keeps of a value. -/
def keepColumn (name : String) (v : Datum) : Except Failure Datum :=
  match v with
  | .truth b => if name = "is_anonymous" ∨ name = "assign_to_team" then .ok (.truth b)
    else ColumnType.text.keep v
  | .stamp s => if name = "submitted_on" ∨ name = "deadline" then .ok (.stamp ⟨s.wall, none⟩)
    else ColumnType.text.keep v
  | .int n => if name = "complaint_type_id" then .ok (.int n) else ColumnType.text.keep v
  | _ => ColumnType.text.keep v

/-- What the columns of a complaint keep. -/
def keepColumns : List (String × Datum) → Except Failure (List (String × Datum))
  | [] => .ok []
  | (name, v) :: rest => do
    let kept ← keepColumn name v
    return (name, kept) :: (← keepColumns rest)

def faultRow (r : Register) (c : Candidate) : FaultRow :=
  ⟨r.nextFaultId, c.unit, c.tag, some c.value.shown, c.time, some c.kind.name⟩

/-- The comment on the first status of a complaint. -/
def firstComment : String := "Verified persistent fault sync"

/-- The rows that a fault adds. -/
structure Entry where
  fault : FaultRow
  complaint : ComplaintRow
  log : LogRow
deriving Repr

/-- A free number for a complaint. -/
def newNumber (r : Register) : Except EntryFault String :=
  match r.access, r.nextNumber with
  | .error f, _ => .error (.failed f)
  | _, .ok n => .ok n
  | _, .error .noneFree => .error .noNumber
  | _, .error (.failed f) => .error (.failed f)

/-- The rows for a fault whose complaint is drafted. -/
def entryOf (r : Register) (k : Clerk) (now : Instant) (c : Candidate) (d : Draft) :
    Except EntryFault Entry :=
  let guarded {α : Type} (x : Except Failure α) : Except EntryFault α := x.mapError (.ofFailure c)
  do
    let type ← guarded (r.findType (.text d.type))
    let number ← match r.nextNumber with
      | .ok n => .ok n
      | .error .noneFree => .error .noNumber
      | .error (.failed f) => .error (.ofFailure c f)
    let due ← guarded (deadline now type)
    let kept ← guarded (keepColumns (columns d type due))
    return ⟨r.faultRow c,
      ⟨r.nextComplaintId, number, d.status, some r.nextFaultId, kept⟩,
      ⟨r.nextLogId, r.nextComplaintId, k.user, none, d.status, some firstComment⟩⟩

/-- The register with the rows of a fault added. -/
def add (r : Register) (e : Entry) : Register :=
  { r with faults := r.faults ++ [e.fault], complaints := r.complaints ++ [e.complaint],
           logs := r.logs ++ [e.log] }

/-- Enters a fault; what comes out is the number of its complaint, and the register after it. -/
def enter (r : Register) (k : Clerk) (now : Instant) (c : Candidate) :
    Except EntryFault String × Register :=
  match Draft.ofCandidate c k.mapping k.clientId k.user (.utc now) with
  | .error f => (.error (.failed f), r)
  | .ok d =>
    match r.access with
    | .error f => (.error (.failed f), r)
    | .ok _ =>
      match r.entryOf k now c d with
      | .error e => (.error e, r)
      | .ok e => (.ok e.complaint.number, r.add e)

end Register

end FaultDesk
