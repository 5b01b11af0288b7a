import FaultDesk.Register.Entry

/-!
Entering a fault step by step. What is written goes into a session on the register, which alone sees
it until it is committed; a session that is closed before leaves nothing behind. At each step
something may be raised from outside: by the database, or by whatever else the step runs into.
-/

namespace FaultDesk

/-- What is raised while a fault is entered. -/
inductive Raised where
  | failure (cause : Failure)
  /-- No number is free for the complaint. -/
  | noNumber
deriving DecidableEq, Repr

namespace Raised

/-- Whether the session is rolled back before it is closed. -/
def isCaught : Raised → Bool
  | failure f => f.isValue || f.isDatabase
  | noNumber => true

def ofNumberFault : NumberFault → Raised
  | .failed f => failure f
  | .noneFree => noNumber

/-- What comes out when the session has been opened. -/
def guarded (c : Candidate) : Raised → EntryFault
  | failure f => .ofFailure c f
  | noNumber => .noNumber

/-- What comes out before the session is opened. -/
def plain : Raised → EntryFault
  | failure f => .failed f
  | noNumber => .noNumber

end Raised

/-- The steps of an entry, in order. -/
inductive EntryStep where
  | draft
  | opening
  | fault
  | complaintType
  | number
  | deadline
  | complaint
  | log
  | commit
deriving DecidableEq, Repr

/-- What is raised from outside at which step, before the step has done anything. -/
abbrev Upsets := EntryStep → Option Raised

/-- Nothing is raised from outside. -/
def Upsets.none : Upsets := fun _ => Option.none

/-- A session on the register. -/
structure Session where
  /-- The register as others see it. -/
  settled : Register
  /-- The register as the session sees it. -/
  pending : Register
deriving Repr

namespace Session

def start (r : Register) : Session := ⟨r, r⟩

def write (s : Session) (f : Register → Register) : Session := { s with pending := f s.pending }

def commit (s : Session) : Session := ⟨s.pending, s.pending⟩

def rollback (s : Session) : Session := ⟨s.settled, s.settled⟩

/-- The register when the session is closed. -/
def close (s : Session) : Register := s.settled

end Session

/-- Work within a session; when something is raised, what has been written stays in the session. -/
abbrev Entering := ExceptT Raised (StateM Session)

namespace Entering

/-- The work done in a session: what comes of it, and the session after it. -/
def within {α : Type} (work : Entering α) (s : Session) : Except Raised α × Session := work s

/-- What is raised from outside at a step. -/
def upset (us : Upsets) (step : EntryStep) : Entering Unit := fun s =>
  match us step with
  | .none => (.ok (), s)
  | some x => (.error x, s)

/-- Works something out from the register as the session sees it. -/
def ask {α : Type} (f : Register → Except Raised α) : Entering α := fun s => (f s.pending, s)

def write (f : Register → Register) : Entering Unit := fun s => (.ok (), s.write f)

/-- Writes the fault. -/
def insertFault (us : Upsets) (c : Candidate) : Entering FaultRow := do
  upset us .fault
  let row ← ask fun r => .ok (r.faultRow c)
  write fun r => { r with faults := r.faults ++ [row] }
  return row

def resolveType (us : Upsets) (d : Draft) : Entering (Option ComplaintType) := do
  upset us .complaintType
  ask fun r => (r.findType (.text d.type)).mapError .failure

def takeNumber (us : Upsets) : Entering String := do
  upset us .number
  ask fun r => r.nextNumber.mapError .ofNumberFault

def setDeadline (us : Upsets) (now : Instant) (type : Option ComplaintType) : Entering Instant := do
  upset us .deadline
  ask fun _ => (Register.deadline now type).mapError .failure

/-- Writes the complaint about a fault. -/
def insertComplaint (us : Upsets) (d : Draft) (fault : FaultRow) (type : Option ComplaintType)
    (number : String) (due : Instant) : Entering ComplaintRow := do
  upset us .complaint
  let kept ← ask fun _ => (Register.keepColumns (Register.columns d type due)).mapError .failure
  let row ← ask fun r => .ok ⟨r.nextComplaintId, number, d.status, some fault.id, kept⟩
  write fun r => { r with complaints := r.complaints ++ [row] }
  return row

/-- Writes the first status of a complaint. -/
def insertLog (us : Upsets) (k : Clerk) (complaint : ComplaintRow) : Entering Unit := do
  upset us .log
  let row ← ask fun r =>
    .ok ⟨r.nextLogId, complaint.id, k.user, .none, complaint.status, some Register.firstComment⟩
  write fun r => { r with logs := r.logs ++ [row] }

/-- Commits the session. -/
def settle (us : Upsets) : Entering Unit := do
  upset us .commit
  fun s => (.ok (), s.commit)

/-- The steps before the commit; the number of the complaint comes of them. -/
def insertRows (us : Upsets) (k : Clerk) (now : Instant) (c : Candidate) (d : Draft) :
    Entering String := do
  let fault ← insertFault us c
  let type ← resolveType us d
  let number ← takeNumber us
  let due ← setDeadline us now type
  let complaint ← insertComplaint us d fault type number due
  insertLog us k complaint
  return number

/-- All steps in a session. -/
def transaction (us : Upsets) (k : Clerk) (now : Instant) (c : Candidate) (d : Draft) :
    Entering String := do
  let number ← insertRows us k now c d
  settle us
  return number

end Entering

/-- Enters a fault step by step. -/
def Register.enterStepwise (us : Upsets) (r : Register) (k : Clerk) (now : Instant)
    (c : Candidate) : Except EntryFault String × Register :=
  match us .draft with
  | some x => (.error x.plain, r)
  | .none =>
    match Draft.ofCandidate c k.mapping k.clientId k.user (.utc now) with
    | .error f => (.error (.failed f), r)
    | .ok d =>
      match us .opening with
      | some x => (.error x.plain, r)
      | .none =>
        match r.access with
        | .error f => (.error (.failed f), r)
        | .ok _ =>
          match (Entering.transaction us k now c d).within (.start r) with
          | (.ok number, s) => (.ok number, s.close)
          | (.error x, s) => (.error (x.guarded c), (if x.isCaught then s.rollback else s).close)

end FaultDesk
