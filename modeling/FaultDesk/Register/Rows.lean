import FaultDesk.Register.Entry

/-!
Rows given by named columns. Columns that are not given have a standard, and the number of a row is
the next free one unless it is given.
-/

namespace FaultDesk

/-- Columns by name. -/
abbrev Columns := List (String × Datum)

namespace Columns

def text? (cs : Columns) (name : String) : Option String :=
  match cs.lookup name with
  | some (.text s) => some s
  | _ => none

def text (cs : Columns) (name : String) : String := (cs.text? name).getD ""

def whole? (cs : Columns) (name : String) : Option Int :=
  match cs.lookup name with
  | some (.int n) => some n
  | _ => none

def id (cs : Columns) (next : Nat) : Nat := ((cs.whole? "id").map Int.toNat).getD next

/-- The columns with others where they are not given. -/
def orElse (cs others : Columns) : Columns := cs ++ others.filter fun o => !cs.any (·.1 == o.1)

end Columns

namespace Register

/-- The tables, in the order in which rows are given. -/
def tableNames : List String :=
  ["complaint_type", "system_config", "fault_sync", "complaint", "status_log"]

/-- The columns of a complaint that have a field of their own. -/
def ownColumns : List String := ["id", "complaint_id", "status", "slms_ref"]

/-- The columns of a complaint that are not null where they are not given. -/
def standardColumns : Columns := [("is_anonymous", .truth false), ("assign_to_team", .truth false)]

/-- Adds a row to a table. -/
def withRow (r : Register) (table : String) (cs : Columns) : Except Failure Register :=
  match table with
  | "complaint_type" => .ok { r with types := r.types ++
      [⟨cs.id r.nextTypeId, cs.text "name", cs.whole? "sla_hours", cs.text? "priority"⟩] }
  | "system_config" => .ok { r with settings := r.settings ++
      [⟨cs.text "key", cs.text? "value", cs.text? "type",
        ((cs.lookup "is_active").map (·.holds)).getD true⟩] }
  | "fault_sync" => .ok { r with faults := r.faults ++
      [⟨cs.id r.nextFaultId, cs.text "rtu_number", cs.text "tag_no", cs.text? "tag_value",
        (match cs.lookup "event_time" with
          | some (.stamp s) => s.wall
          | _ => 0),
        cs.text? "source_type"⟩] }
  | "complaint" => do
    let rest := Columns.orElse (cs.filter (!ownColumns.contains ·.1)) standardColumns
    let details ← keepColumns rest
    return { r with complaints := r.complaints ++
      [⟨cs.id r.nextComplaintId, cs.text "complaint_id", cs.text "status", cs.whole? "slms_ref",
        details⟩] }
  | _ => .ok { r with logs := r.logs ++
      [⟨cs.id r.nextLogId, ((cs.whole? "complaint_id").map Int.toNat).getD 0, cs.text? "user_id",
        cs.text? "from_status", cs.text "to_status", cs.text? "comment"⟩] }

/-- The setting rows with one added, or put in the place of the one of its key. -/
def withSetting (r : Register) (row : SettingRow) : Register :=
  { r with settings :=
      if r.settings.any (·.key == row.key) then
        r.settings.map fun s => if s.key == row.key then row else s
      else r.settings ++ [row] }

end Register

end FaultDesk
