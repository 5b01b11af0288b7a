import FaultDesk.Datum.Shown
import FaultDesk.Number.Numeral

/-!
What a column of a table keeps of a value. Numbers become texts in a column of texts, texts that are
numbers become numbers in a column of numbers, and stamps lose their offset.
-/

namespace FaultDesk

inductive ColumnType where
  | whole
  | real
  | text
  | stamp
deriving DecidableEq, Repr

namespace Double

/-- Numbers as a column of texts keeps them: fifteen digits at most. -/
def columnLayout : Layout := ⟨-4, 14, ['.', '0'], 'e', true, 2⟩

/-- The text a number is kept as; NaN is not kept. -/
def columnText : Double → Option String
  | .nan => none
  | .infinite n => some (if n then "-Inf" else "Inf")
  | .finite n s _ =>
    if s = 0 then some "0.0"
    else some (String.ofList ((if n then ['-'] else []) ++
      columnLayout.write (Scaled.trim 15 (significant 15 s))))

end Double

namespace ColumnType

/-- The least and the greatest whole number that can be kept. -/
def holdsWhole (n : Int) : Bool := decide (-(Nat.pow 2 63) ≤ n ∧ n < Nat.pow 2 63)

/-- A number as a column of whole numbers keeps it. -/
def wholeIfPossible (d : Double) : Datum :=
  match d.isWhole, d.whole? with
  | true, some n => if holdsWhole n then .int n else .float d
  | _, _ => .float d

/-- The number that a text is. -/
def numeral? (s : String) : Option Numeral := Numeral.read (Text.trimmed s.toList)

def keepWhole (c : ColumnType) (n : Int) : Except Failure Datum :=
  if !holdsWhole n then .error .wholeTooLarge
  else
    match c with
    | whole => .ok (.int n)
    | real => .ok (.float (Double.ofInt n))
    | text => .ok (.text (toString n))
    | stamp => .error .databaseRefused

def keepDouble (c : ColumnType) (d : Double) : Except Failure Datum :=
  if d.isNan then if c = stamp then .error .databaseRefused else .ok .null
  else
    match c with
    | whole => .ok (wholeIfPossible d)
    | real => .ok (.float d)
    | text => .ok (.ofText? d.columnText)
    | stamp => .error .databaseRefused

def keepText (c : ColumnType) (s : String) : Except Failure Datum :=
  match c with
  | text => .ok (.text s)
  | whole => .ok (match numeral? s with
    | some n => wholeIfPossible n.toDouble
    | none => .text s)
  | real => .ok (match numeral? s with
    | some n => .float n.toDouble
    | none => .text s)
  | stamp => .error .databaseRefused

/-- What is kept of a value. -/
def keep (c : ColumnType) : Datum → Except Failure Datum
  | .null => .ok .null
  | .truth b => keepWhole c (if b then 1 else 0)
  | .int n => keepWhole c n
  | .float d => keepDouble c d
  | .text s => keepText c s
  | .bytes bs => if c = stamp then .error .databaseRefused else .ok (.bytes bs)
  | .date d => keepText c d.text
  | .stamp s => if c = stamp then .ok (.stamp ⟨s.wall, none⟩) else keepText c (s.textWith ' ')
  | _ => .error .databaseRefused

end ColumnType

end FaultDesk
