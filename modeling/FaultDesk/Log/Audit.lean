import FaultDesk.Datum.JsonText

/-!
Audit records: one JSON line each, at the end of a file of its kind and day. The time of writing stands
in front unless the record has a timestamp of its own.
-/

namespace FaultDesk

/-- What an audit record is about. -/
inductive AuditKind where
  /-- A fault that an open complaint stops. -/
  | skipped
  /-- What would have been written, in a simulated run. -/
  | simulated
  /-- A row as it was read. -/
  | raw (source : String)
deriving DecidableEq, Repr

namespace AuditKind

/-- The beginning of the name of the file. -/
def file : AuditKind → String
  | skipped => "skipped_faults"
  | simulated => "dev_payloads"
  | raw source => "data_extracted_" ++ source

/-- The name of the file of a day. -/
def fileName (k : AuditKind) (today : Date) : String := k.file ++ "_" ++ today.text ++ ".log"

end AuditKind

/-- What the files hold, by name; a file that is not there holds nothing. -/
abbrev AuditFiles := String → String

structure AuditRecord where
  kind : AuditKind
  fields : List (String × Datum)
deriving Repr

namespace AuditRecord

/-- The name of the field with the time of writing. -/
def timestamp : String := "timestamp"

/-- What a record is written as. -/
def entries (r : AuditRecord) : List (String × Datum) :=
  match r.kind with
  | .simulated => [("payload", .object r.fields)]
  | _ => r.fields

/-- The whole object: the time of writing, or the record's own timestamp, and the other fields. -/
def stamped (r : AuditRecord) (written : Stamp) : Datum :=
  .object ((timestamp, (r.entries.lookup timestamp).getD (.text written.text)) ::
    r.entries.filter (·.1 ≠ timestamp))

/-- The line of a record. -/
def line (r : AuditRecord) (written : Stamp) : Except Failure String := (r.stamped written).json .iso

/-- Writes a record at the end of its file; one that cannot be written leaves the files alone. -/
def append (r : AuditRecord) (written : Stamp) (today : Date) (files : AuditFiles) : AuditFiles :=
  match r.line written with
  | .ok line => fun name =>
    if name = r.kind.fileName today then files name ++ line ++ "\n" else files name
  | .error _ => files

/-- The lines of records, in the order of writing, by name of file; a record that cannot be written
has none. -/
def linesByFile (records : List AuditRecord) (written : Stamp) : List (String × List String) :=
  let lines := records.filterMap fun r => match r.line written with
    | .ok s => some (r.kind.file, s)
    | .error _ => none
  (lines.map (·.1)).eraseDups.map fun f => (f, (lines.filter (·.1 == f)).map (·.2))

end AuditRecord

end FaultDesk
