import FaultDesk.Datum.Normal
import FaultDesk.Datum.Same
import FaultDesk.Text.Case

/-!
Samples: a reading of one tag at one unit, with the row it came from.
-/

namespace FaultDesk

/-- Where a reading comes from. -/
inductive SourceKind where
  | digital
  | analog
  /-- The joined digital and analog tables. -/
  | unified
  /-- Worked out from the tables rather than read; such a sample is as old as its state. -/
  | computed
deriving DecidableEq, Repr, Inhabited

namespace SourceKind

def name : SourceKind → String
  | digital => "DIGITAL"
  | analog => "ANALOG"
  | unified => "UNIFIED"
  | computed => "COMPUTED_STATE"

def all : List SourceKind := [digital, analog, unified, computed]

def ofName? (s : String) : Option SourceKind := all.find? (·.name == s)

theorem ofName?_name (k : SourceKind) : ofName? k.name = some k := by cases k <;> rfl

/-- The name of the digital table; every other name means the analog one. -/
def digitalTable : String := "DIGITALDATA"

/-- The kind of the table with that name. -/
def ofTable (table : String) : SourceKind :=
  if Text.upper table = digitalTable then digital else analog

/-- Whether a rule bound to a table looks at readings of a kind. -/
def fits (kind : SourceKind) (table : Option String) : Bool :=
  match table with
  | none => true
  | some t => t.isEmpty || kind == unified || kind == computed || ofTable t == kind

end SourceKind

/-- The columns of a source row. -/
abbrev Row := List (String × Datum)

namespace Row

/-- The value of a column, null and absent being one. -/
def value? (row : Row) (column : String) : Option Datum :=
  match row.lookup column with
  | some .null => none
  | v => v

end Row

structure Sample where
  unit : String
  tag : String
  value : Datum
  time : Instant
  kind : SourceKind
  row : Option Row
deriving Repr, Inhabited

namespace Sample

/-- A sample of values of any kind: unit and tag become texts, the time UTC. -/
def ofValues (unit tag value : Datum) (time : Stamp) (kind : SourceKind) (row : Option Row) :
    Except Failure Sample :=
  match time.instant? with
  | some t => .ok ⟨unit.shown, tag.shown, value, t, kind, row⟩
  | none => .error .timeOutOfRange

/-- Whether two samples say the same; the rows are not looked at. -/
def same (a b : Sample) : Bool :=
  a.unit == b.unit && a.tag == b.tag && a.value.same b.value && a.time == b.time && a.kind == b.kind

/-- Samples in order of time; those of one time stay in order. -/
def sorted (samples : List Sample) : List Sample := samples.mergeSort fun a b => decide (a.time ≤ b.time)

end Sample

end FaultDesk
