import FaultDesk.Config.Basic
import FaultDesk.Sample

/-!
Rows of readings: a unit, a time and a column for each tag. In a joined row the analog columns stand
under names of their own; merging brings both readings of a tag together, and exploding makes a
sample of each tag of interest.
-/

namespace FaultDesk

namespace Row

def unitColumn : String := "RTUNumber"

def timeColumn : String := "DateTimeField"

/-- What stands in front of the name of an analog column in a joined row. -/
def analogMark : String := "Analog"

/-- The tag of an analog column of a joined row. -/
def analogTag? (column : String) : Option String :=
  if analogMark.toList.isPrefixOf column.toList then
    some (String.ofList (column.toList.drop analogMark.length))
  else none

/-- The row with the value of a column replaced, or the column added at the end. -/
def put (row : Row) (column : String) (value : Datum) : Row :=
  match row with
  | [] => [(column, value)]
  | (c, v) :: rest => if c = column then (c, value) :: rest else (c, v) :: put rest column value

theorem lookup_put (row : Row) (column other : String) (value : Datum) :
    (put row column value).lookup other = if other = column then some value else row.lookup other := by
  induction row with
  | nil =>
    by_cases h : other = column
    · simp [put, h]
    · simp [put, List.lookup_cons, beq_eq_false_iff_ne.mpr h, h]
  | cons e rest ih =>
    obtain ⟨c, v⟩ := e
    by_cases hc : c = column
    · by_cases h : other = column
      · simp [put, hc, h]
      · simp [put, List.lookup_cons, hc, beq_eq_false_iff_ne.mpr h, h]
    · by_cases h : other = c
      · simp [put, hc, h]
      · simp [put, List.lookup_cons, hc, beq_eq_false_iff_ne.mpr h, ih]

/-- Takes one column of a joined row over: an analog reading takes the place of a digital one that is
missing, and of any one where the tag is an analog tag. -/
def takeOver (analogTags : List String) (merged : Row) (entry : String × Datum) : Row :=
  match analogTag? entry.1 with
  | none => merged
  | some tag =>
    if entry.2.isNull then merged
    else if (merged.value? tag).isNone || analogTags.contains tag then merged.put tag entry.2
    else merged

/-- A joined row with its analog readings under the names of their tags. -/
def merge (analogTags : List String) (row : Row) : Row := row.foldl (takeOver analogTags) row

/-- What a value is called where it should be a time. -/
def kindName : Datum → String
  | .null => "NoneType"
  | .truth _ => "bool"
  | .int _ => "int"
  | .float _ => "float"
  | .text _ => "str"
  | .bytes _ => "bytes"
  | .decimal _ => "decimal.Decimal"
  | .date _ => "datetime.date"
  | .stamp _ => "datetime.datetime"
  | .list _ => "list"
  | .tuple _ => "tuple"
  | .set _ => "set"
  | .mapping _ => "dict"

/-- A sample of a tag whose time is a value of any kind. -/
def sample (unit : String) (tag : String) (value time : Datum) (kind : SourceKind)
    (row : Option Row) : Except Failure Sample :=
  match time with
  | .stamp s => Sample.ofValues (.text unit) (.text tag) value s kind row
  | d => .error (.noTime (kindName d))

/-- The value of a column that has to be there. -/
def needed (row : Row) (column : String) : Except Failure Datum :=
  (row.lookup column).elim (.error (.missingColumn column)) .ok

/-- The samples of a joined row: one for each tag of interest that has a value, in order of tag. -/
def explode (tags analogTags : List String) (kind : SourceKind) (row : Row) :
    Except Failure (List Sample) := do
  let merged := row.merge analogTags
  let unit ← merged.needed unitColumn
  let time ← merged.needed timeColumn
  (ascending tags).filterMap (fun t => (merged.value? t).map (t, ·)) |>.mapM fun (tag, value) =>
    sample unit.shown tag value time kind (some merged)

end Row

end FaultDesk
