import FaultDesk.Datum.Column
import FaultDesk.Source.Row

/-!
Tables of readings and how their cells compare: null equals nothing and comes first, numbers come
before texts, and a text of digits equals the number it shows.
-/

namespace FaultDesk

namespace Cell

/-- A value as a number, where it is one or shows one. -/
def number? : Datum → Option Datum
  | .int n => some (.int n)
  | .float d => some (.float d)
  | .text s => (ColumnType.numeral? s).map fun n => ColumnType.wholeIfPossible n.toDouble
  | _ => none

/-- Whether two cells are equal. -/
def equal (a b : Datum) : Bool :=
  match a, b with
  | .null, _ | _, .null => false
  | .text s, .text t => s == t
  | .text _, _ | _, .text _ =>
    match number? a, number? b with
    | some x, some y => x.same y
    | _, _ => false
  | x, y => x.same y

/-- Whether a cell holds zero. -/
def isZero : Datum → Bool
  | .int n => n == 0
  | .float d => d.isZero
  | .text s => s == "0"
  | _ => false

/-- Where a value stands among values of other kinds. -/
def rank : Datum → Nat
  | .null => 0
  | .text _ | .stamp _ => 2
  | _ => 1

/-- The text that a cell is compared by. -/
def textOf : Datum → String
  | .text s => s
  | .stamp s => s.textWith ' '
  | _ => ""

/-- Whether a number is not above another. -/
def numberLe : Datum → Datum → Bool
  | .int m, .int n => decide (m ≤ n)
  | a, b =>
    match a.number?, b.number? with
    | .ok (some x), .ok (some y) => x.le y
    | _, _ => false

/-- Whether a cell does not come after another. -/
def le (a b : Datum) : Bool :=
  match a, b with
  | .stamp s, .stamp t => decide (s.wall ≤ t.wall)
  | _, _ =>
    if rank a = rank b then
      match rank a with
      | 0 => true
      | 1 => numberLe a b
      | _ => decide (textOf a ≤ textOf b)
    else decide (rank a < rank b)

/-- Whether a cell holds a time at or after an instant. -/
def notBefore (cell : Datum) (i : Instant) : Bool :=
  !cell.isNull && le (.stamp (.naive i)) cell

/-- Whether a cell holds a time at or before an instant. -/
def notAfter (cell : Datum) (i : Instant) : Bool :=
  !cell.isNull && le cell (.stamp (.naive i))

/-- Whether a cell holds a time after an instant. -/
def isAfter (cell : Datum) (i : Instant) : Bool := !cell.isNull && !notAfter cell i

/-- The greatest of some cells. -/
def greatest (cells : List Datum) : Datum :=
  cells.foldl (fun best c => if le best c then c else best) .null

end Cell

/-- Readings of one kind: the columns and the rows in order of insertion. -/
structure ReadingTable where
  columns : List (String × ColumnType)
  rows : List Row
  /-- Whether the table is there. -/
  present : Bool
deriving Repr

namespace ReadingTable

def ofColumns (columns : List (String × ColumnType)) : ReadingTable := ⟨columns, [], true⟩

/-- A row of values as the table keeps it. -/
def keptRow (t : ReadingTable) (values : List Datum) : Except Failure Row :=
  t.columns.zipIdx.mapM fun ((name, type), i) => do return (name, ← type.keep (values.getD i .null))

/-- Adds rows; all of them or none. -/
def insert (t : ReadingTable) (rows : List (List Datum)) : Except Failure ReadingTable :=
  if t.present then do
    let more ← rows.mapM t.keptRow
    return { t with rows := t.rows ++ more }
  else .error .databaseRefused

/-- The type of a column that has to be there. -/
def typeOf (t : ReadingTable) (column : String) : Except Failure ColumnType :=
  (t.columns.lookup column).elim (.error (.missingColumn column)) .ok

/-- The rows, if the table can still be read. -/
def read (t : ReadingTable) : Except Failure (List Row) :=
  if t.present then .ok t.rows else .error .readingsRefused

end ReadingTable

namespace Row

/-- The value of a column; null where there is none. -/
def cell (row : Row) (column : String) : Datum := (row.lookup column).getD .null

def unitCell (row : Row) : Datum := row.cell unitColumn

def timeCell (row : Row) : Datum := row.cell timeColumn

/-- Whether rows are of one unit and one time. -/
def matches? (a b : Row) : Bool :=
  Cell.equal a.unitCell b.unitCell && Cell.equal a.timeCell b.timeCell

/-- Whether a row comes before another or with it: by unit, then by time. -/
def le (a b : Row) : Bool :=
  if Cell.le a.unitCell b.unitCell then
    !Cell.le b.unitCell a.unitCell || Cell.le a.timeCell b.timeCell
  else false

/-- The rows in order of unit and time; those of one unit and time stay in order. -/
def sorted (rows : List Row) : List Row := rows.mergeSort le

end Row

namespace ReadingTable

/-- The columns of the analog table that a joined row shows. -/
def tagColumns (t : ReadingTable) : List String :=
  (t.columns.map (·.1)).filter fun c => "Tag".toList.isPrefixOf c.toList

/-- The analog part of a joined row. -/
def analogPart (columns : List String) (row : Row) : Row :=
  columns.map fun c => (Row.analogMark ++ c, row.cell c)

/-- Every digital row with the analog rows of its unit and time, or with nulls where there are none. -/
def join (analogColumns : List String) (digital analog : List Row) : List Row :=
  digital.flatMap fun d =>
    match analog.filter d.matches? with
    | [] => [d ++ analogPart analogColumns []]
    | ms => ms.map fun a => d ++ analogPart analogColumns a

end ReadingTable

end FaultDesk
