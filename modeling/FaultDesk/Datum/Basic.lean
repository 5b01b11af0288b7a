import FaultDesk.Failure
import FaultDesk.Number.Decimal
import FaultDesk.Time.Stamp

/-!
Dynamic values: what a telemetry column, a rules file or a request can hold. A mapping keeps the
order of its entries; its keys may be values of any kind.
-/

namespace FaultDesk

inductive Datum where
  | null
  | truth (b : Bool)
  | int (n : Int)
  | float (d : Double)
  | decimal (d : Decimal)
  | text (s : String)
  | bytes (bs : List UInt8)
  | date (d : Date)
  | stamp (s : Stamp)
  | list (items : List Datum)
  | tuple (items : List Datum)
  | set (items : List Datum)
  | mapping (entries : List (Datum × Datum))
deriving Inhabited, Repr

namespace Datum

/-- A mapping with text keys. -/
def object (fields : List (String × Datum)) : Datum := .mapping (fields.map fun (k, v) => (.text k, v))

/-- A text or null. -/
def ofText? (s : Option String) : Datum := (s.map text).getD null

/-- The entry under a text key. -/
def lookup (key : String) : List (Datum × Datum) → Option Datum
  | [] => none
  | (.text k, v) :: rest => if k = key then some v else lookup key rest
  | _ :: rest => lookup key rest

/-- A value's entry under a text key, when the value is a mapping that has one. -/
def field? (d : Datum) (key : String) : Option Datum :=
  match d with
  | .mapping es => lookup key es
  | _ => none

/-- The number a whole number stands for, by the binary64 number nearest to it. -/
def numberOfWhole : Double → Except Failure (Option Double)
  | .infinite _ => .error .wholeTooLarge
  | d => .ok (some d)

/-- The number a reading or threshold stands for: booleans count as 0 and 1, a text is read without
the blanks around it, and null, NaN, blank texts and containers stand for none. -/
def number? : Datum → Except Failure (Option Double)
  | .truth b => .ok (some (Double.ofNat (if b then 1 else 0)))
  | .int n => numberOfWhole (Double.ofInt n)
  | .float d => .ok (if d.isNan then none else some d)
  | .decimal d =>
    match d.toDouble? with
    | none => .error .signalingNan
    | some x => .ok (if x.isNan then none else some x)
  | .text s =>
    match Double.ofText? s with
    | some d => .ok (if d.isNan then none else some d)
    | none => .ok none
  | _ => .ok none

/-- Whether a value counts as true: null, false, zeros and empty texts and containers do not. -/
def holds : Datum → Bool
  | .null => false
  | .truth b => b
  | .int n => n != 0
  | .float d => !d.isZero
  | .decimal d => !d.isZero
  | .text s => !s.isEmpty
  | .bytes b => !b.isEmpty
  | .list xs => !xs.isEmpty
  | .tuple xs => !xs.isEmpty
  | .set xs => !xs.isEmpty
  | .mapping es => !es.isEmpty
  | .date _ => true
  | .stamp _ => true

mutual

/-- Whether a value can be looked up: one that can change cannot, and neither can a signaling NaN. -/
def isKey : Datum → Bool
  | .list _ => false
  | .set _ => false
  | .mapping _ => false
  | .tuple xs => areKeys xs
  | .decimal d => d.toDouble?.isSome
  | _ => true

def areKeys : List Datum → Bool
  | [] => true
  | x :: xs => isKey x && areKeys xs

end

/-- Whether a value is null. -/
def isNull : Datum → Bool
  | .null => true
  | _ => false

end Datum

end FaultDesk
