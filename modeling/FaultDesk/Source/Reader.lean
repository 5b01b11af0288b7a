import FaultDesk.Number.Whole
import FaultDesk.Source.Table
import FaultDesk.Time.Span

/-!
Reading the tables of a client: the joined stream after a time, the past of some units, and the two
states that are worked out rather than read, units that have fallen silent and units without power.
-/

namespace FaultDesk

/-- The tables of a client. -/
structure Readings where
  client : String
  digital : Option ReadingTable
  analog : Option ReadingTable
  /-- Whether the columns of both tables have been looked up before. -/
  known : Bool
deriving Repr

namespace Readings

def empty (client : String) : Readings := ⟨client, none, none, false⟩

/-- A table whose columns can be looked up, or are known from before. -/
def table (db : Readings) (t : Option ReadingTable) (name : String) : Except Failure ReadingTable :=
  match t with
  | some t => if db.known || t.present then .ok t else .error (.noReadings db.client (name ++ db.client))
  | none => .error (.noReadings db.client (name ++ db.client))

/-- Both tables, the digital one first. -/
def tables (db : Readings) : Except Failure (ReadingTable × ReadingTable) := do
  let d ← db.table db.digital "DigitalData"
  let a ← db.table db.analog "AnalogData"
  return (d, a)

/-- The tables after both have been asked for. -/
def lookedUp (db : Readings) : Readings := { db with known := db.known || db.tables.isOk }

end Readings

/-- What is asked of the tables. -/
inductive ReadingQuery where
  /-- The joined readings after a time. -/
  | stream (since : Stamp)
  /-- The readings of some units in the last hours. -/
  | history (units : List String) (hours : Double) (kind : SourceKind)
  /-- The units that have fallen silent. -/
  | communication
  /-- The units without power. -/
  | power
deriving Repr

/-- How the tables are read. -/
structure SourceReader where
  /-- The tags of interest. -/
  tags : List String
  /-- The tags whose analog reading goes before the digital one. -/
  analogTags : List String
  computed : ComputedFaults
deriving Repr

namespace SourceReader

/-- The reader a configuration describes. -/
def ofConfig (c : Config) : SourceReader := ⟨c.tagsOfInterest, c.analogTags, c.computedFaults⟩

/-- Both tables, with unit and time columns to join them by. -/
def joinable (db : Readings) : Except Failure (ReadingTable × ReadingTable) := do
  let (d, a) ← db.tables
  for c in [Row.unitColumn, Row.timeColumn] do
    discard (d.typeOf c)
    discard (a.typeOf c)
  return (d, a)

/-- The joined rows. -/
def joinedRows (d a : ReadingTable) : Except Failure (List Row) := do
  return ReadingTable.join a.tagColumns (← d.read) (← a.read)

/-- The joined rows after a time, in order of unit and time. -/
def streamRows (db : Readings) (since : Stamp) : Except Failure (List Row) := do
  let (d, a) ← joinable db
  match since.instant? with
  | none => .error .timeOutOfRange
  | some i => return Row.sorted ((← joinedRows d a).filter (Cell.isAfter ·.timeCell i))

/-- The samples of rows, row after row. -/
def samplesOf (r : SourceReader) (kind : SourceKind) (rows : List Row) :
    Except Failure (List Sample) := do
  return (← rows.mapM (Row.explode r.tags r.analogTags kind)).flatten

/-- Rows with their samples up to the first row that cannot be used, and that row with what is wrong
with it. -/
def explodeRows (r : SourceReader) : List Row → List (Row × List Sample) × Option (Row × Failure)
  | [] => ([], none)
  | row :: rest =>
    match Row.explode r.tags r.analogTags .unified row with
    | .error f => ([], some (row, f))
    | .ok ss =>
      let (rows, broken) := r.explodeRows rest
      ((row, ss) :: rows, broken)

/-- The units as a column of some type shows them. A column of whole numbers shows those only whose
text is made of figures. -/
def unitCells (type : ColumnType) (units : List String) : Except Failure (List Datum) :=
  match type with
  | .whole => (units.filter fun u => Text.allFigures (String.ofList (u.toList.dropWhile (· = '-')))).mapM
      fun u => (Whole.read u).map .int
  | _ => .ok (units.map .text)

/-- Whether a whole number is too large to be looked for. -/
def isUnbound : Datum → Bool
  | .int n => !ColumnType.holdsWhole n
  | _ => false

def history (r : SourceReader) (db : Readings) (now : Instant) (units : List String) (hours : Double)
    (kind : SourceKind) : Except Failure (List Sample) :=
  if units.isEmpty then .ok []
  else do
    let cutoff ← Span.from? now (-(← Span.hours hours))
    let (d, a) ← if kind = .digital || kind = .analog then db.tables else joinable db
    let table := if kind = .analog then a else d
    discard (table.typeOf Row.timeColumn)
    let cells ← unitCells (← table.typeOf Row.unitColumn) units
    let rows ← match kind with
      | .digital => d.read
      | .analog => a.read
      | _ => joinedRows d a
    if cells.any isUnbound then .error .wholeTooLarge
    else
      r.samplesOf kind (Row.sorted (rows.filter fun row =>
        Cell.notBefore row.timeCell cutoff && cells.any (Cell.equal row.unitCell ·)))

/-- The units of rows, each once, in order. -/
def unitsOf (rows : List Row) : List Datum :=
  let units := (rows.map (·.unitCell)).mergeSort Cell.le
  units.foldr (fun u rest => match rest with
    | v :: _ => if Cell.le v u then rest else u :: rest
    | [] => [u]) []

/-- The units of rows with their greatest time. -/
def lastSeen (rows : List Row) : List (Datum × Datum) :=
  (unitsOf rows).map fun u =>
    (u, Cell.greatest ((rows.filter fun r => Cell.le r.unitCell u && Cell.le u r.unitCell).map
      (·.timeCell)))

/-- The samples of units in a state since some time. -/
def stateSamples (tag : String) (seen : List (Datum × Datum)) : Except Failure (List Sample) :=
  seen.mapM fun (u, time) => Row.sample u.shown tag (.int 0) time .computed none

/-- Units whose last record of no communication is old, though not so old that they are out of use,
and that have sent nothing analog in the silence window. -/
def communication (r : SourceReader) (db : Readings) (now : Instant) : Except Failure (List Sample) :=
  let c := r.computed.communication
  if !c.enabled then .ok []
  else do
    let (d, a) ← db.tables
    discard (d.typeOf Row.timeColumn)
    discard (a.typeOf Row.unitColumn)
    discard (d.typeOf Row.unitColumn)
    discard (a.typeOf Row.timeColumn)
    let heard ← Span.from? now (-(← Span.hours c.analogSilenceHours))
    discard (d.typeOf c.tag)
    let stale ← Span.from? now (-(← Span.hours c.staleHours))
    let inUse ← Span.from? now (-(← Span.hours c.decommissionHours))
    let rows ← d.read
    let sent := (← a.read).filter (Cell.notBefore ·.timeCell heard)
    let silent := rows.filter fun row =>
      Cell.isZero (row.cell c.tag) && !sent.any (Cell.equal row.unitCell ·.unitCell)
    stateSamples c.tag ((lastSeen silent).filter fun (_, time) =>
      Cell.notAfter time stale && Cell.notBefore time inUse)

/-- The latest record of no power of each unit in the window. -/
def power (r : SourceReader) (db : Readings) (now : Instant) : Except Failure (List Sample) :=
  let c := r.computed.power
  if !c.enabled then .ok []
  else do
    let (d, _) ← db.tables
    discard (d.typeOf Row.timeColumn)
    discard (d.typeOf Row.unitColumn)
    discard (d.typeOf c.tag)
    let cutoff ← Span.from? now (-(← Span.minutes c.lookbackMinutes))
    let off := (← d.read).filter fun row =>
      Cell.isZero (row.cell c.tag) && Cell.notBefore row.timeCell cutoff
    stateSamples c.tag (lastSeen off)

/-- Whether a query looks at the tables at all. -/
def opens (r : SourceReader) : ReadingQuery → Bool
  | .stream _ => true
  | .history units .. => !units.isEmpty
  | .communication => r.computed.communication.enabled
  | .power => r.computed.power.enabled

/-- The samples a query gives, and the tables as far as they are known after it. -/
def answer (r : SourceReader) (db : Readings) (now : Instant) (q : ReadingQuery) :
    Except Failure (List Sample) × Readings :=
  let samples := match q with
    | .stream since => do r.samplesOf .unified (← streamRows db since)
    | .history units hours kind => r.history db now units hours kind
    | .communication => r.communication db now
    | .power => r.power db now
  (samples, if r.opens q then db.lookedUp else db)

end SourceReader

end FaultDesk
