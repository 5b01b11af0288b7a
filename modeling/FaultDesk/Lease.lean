import FaultDesk.Failure
import FaultDesk.Number.Double
import FaultDesk.Time.Stamp

/-!
Leases: who may run. A record in a table says who holds a name and until when; a record whose time
has come may be taken over. Each holder keeps a lock of its own and the end of its lease, and writes
the record again only when half of the time has gone.
-/

namespace FaultDesk

/-- Who holds a name, and until when. -/
structure LeaseRecord where
  owner : String
  expires : Instant
deriving DecidableEq, Repr

/-- The records of all names. -/
structure LeaseTable where
  records : List (String × LeaseRecord)
  /-- Whether the table is there. -/
  present : Bool
  /-- Why the database cannot be reached, if it cannot. -/
  down : Option Failure
deriving Repr

namespace LeaseTable

def empty : LeaseTable := ⟨[], true, none⟩

/-- Whether records can be looked at. -/
def access (t : LeaseTable) : Except Failure Unit :=
  match t.down with
  | some f => .error f
  | none => if t.present then .ok () else .error .databaseRefused

def find? (t : LeaseTable) (name : String) : Option LeaseRecord := t.records.lookup name

/-- The records with one replaced or added at the end. -/
def written (records : List (String × LeaseRecord)) (name : String) (r : LeaseRecord) :
    List (String × LeaseRecord) :=
  match records with
  | [] => [(name, r)]
  | (n, old) :: rest => if n = name then (n, r) :: rest else (n, old) :: written rest name r

theorem lookup_written (records : List (String × LeaseRecord)) (name other : String)
    (r : LeaseRecord) :
    (written records name r).lookup other = if other = name then some r else records.lookup other := by
  induction records with
  | nil =>
    by_cases h : other = name
    · simp [written, h]
    · simp [written, List.lookup_cons, beq_eq_false_iff_ne.mpr h, h]
  | cons e rest ih =>
    obtain ⟨n, old⟩ := e
    by_cases hn : n = name
    · by_cases h : other = name
      · simp [written, hn, h]
      · simp [written, List.lookup_cons, hn, beq_eq_false_iff_ne.mpr h, h]
    · by_cases h : other = n
      · simp [written, hn, h]
      · simp [written, List.lookup_cons, hn, beq_eq_false_iff_ne.mpr h, ih]

def put (t : LeaseTable) (name : String) (r : LeaseRecord) : LeaseTable :=
  { t with records := written t.records name r }

theorem find?_put (t : LeaseTable) (name other : String) (r : LeaseRecord) :
    (t.put name r).find? other = if other = name then some r else t.find? other :=
  lookup_written ..

def erase (t : LeaseTable) (name : String) : LeaseTable :=
  { t with records := t.records.filter (·.1 ≠ name) }

end LeaseTable

/-- One holder's side of a lease. -/
structure Lease where
  name : String
  /-- How long a lease lasts. -/
  ttl : Span
  /-- Whether the holder's own lock is taken. -/
  locked : Bool
  owner : Option String
  /-- When the lease ends, as far as the holder knows. -/
  expires : Option Instant
deriving DecidableEq, Repr

namespace Lease

def fresh (name : String) (ttl : Span) : Lease := ⟨name, ttl, false, none, none⟩

/-- Whether a record keeps another owner out. -/
def blocks (r : LeaseRecord) (owner : String) (now : Instant) : Bool :=
  r.owner != owner && decide (now < r.expires)

/-- Writes the record, unless another owner holds the name. -/
def claim (l : Lease) (owner : String) (now : Instant) (t : LeaseTable) :
    Except Failure Bool × LeaseTable :=
  match t.access with
  | .error e => (.error e, t)
  | .ok _ =>
    if (t.find? l.name).any (blocks · owner now) then (.ok false, t)
    else
      match Instant.shift? now l.ttl with
      | none => (.error .timeOutOfRange, t)
      | some e => (.ok true, t.put l.name ⟨owner, e⟩)

/-- Takes the lease. A refused statement means no; a failure of another kind leaves the lock taken. -/
def acquire (l : Lease) (owner : String) (now : Instant) (t : LeaseTable) :
    Except Failure Bool × Lease × LeaseTable :=
  if l.locked then (.ok false, l, t)
  else
    match l.claim owner now t with
    | (.ok true, t) =>
      (.ok true, { l with locked := true, owner := some owner, expires := Instant.shift? now l.ttl }, t)
    | (.ok false, t) => (.ok false, l, t)
    | (.error e, t) =>
      if e.isDatabase then (.ok false, l, t) else (.error e, { l with locked := true }, t)

/-- Whether so much of the lease is left that the record need not be written. -/
def isAmple (l : Lease) (now : Instant) : Bool :=
  match l.expires with
  | some e => decide (roundedQuotientInt l.ttl 2 < e - now)
  | none => false

/-- Makes the lease last from now on; whether it is still held. -/
def renew (l : Lease) (now : Instant) (t : LeaseTable) : Except Failure Bool × Lease × LeaseTable :=
  match l.owner with
  | none => (.ok false, l, t)
  | some owner =>
    if l.isAmple now then (.ok true, l, t)
    else
      match t.access with
      | .error e => (if e.isDatabase then .ok false else .error e, l, t)
      | .ok _ =>
        if (t.find? l.name).any (·.owner == owner) then
          match Instant.shift? now l.ttl with
          | none => (.error .timeOutOfRange, l, t)
          | some e => (.ok true, { l with expires := some e }, t.put l.name ⟨owner, e⟩)
        else (.ok false, l, t)

/-- The record is erased if it is the owner's. -/
def relinquish (l : Lease) (owner : String) (t : LeaseTable) : LeaseTable :=
  if (t.find? l.name).any (·.owner == owner) then t.erase l.name else t

/-- Gives the lease back. The lock is opened whoever asks. -/
def release (l : Lease) (owner : String) (t : LeaseTable) : Except Failure Unit × Lease × LeaseTable :=
  let opened := if l.owner = some owner then { l with owner := none, expires := none, locked := false }
    else { l with locked := false }
  match t.access with
  | .error e => (if e.isDatabase then .ok () else .error e, opened, t)
  | .ok _ => (.ok (), opened, l.relinquish owner t)

end Lease

end FaultDesk
