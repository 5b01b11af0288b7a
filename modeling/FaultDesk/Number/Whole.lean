import FaultDesk.Failure
import FaultDesk.Number.Numeral

/-!
Reading and writing whole numbers with a limit on their digits.
-/

namespace FaultDesk

namespace Whole

/-- The greatest number of digits that is read or written. -/
def digitLimit : Nat := 4300

/-- A text as it is shown in a message, cut when it is long. -/
def quotedShort (s : String) : String := String.ofList ((Text.quoted s).toList.take 200)

/-- Reads a whole number: blanks around it, a sign, digits of any script with single underscores
between them. -/
def read (s : String) : Except Failure Int :=
  match Numeral.int? s with
  | none => .error (.notWhole 10 (quotedShort s))
  | some n =>
    let count := (s.toList.filter isDecimal).length
    if digitLimit < count then .error (.tooManyFigures count) else .ok n

/-- The digits of a whole number. -/
def write (n : Int) : Except Failure String :=
  if Nat.pow 10 digitLimit ≤ n.natAbs then .error .tooManyDigits else .ok (toString n)

/-- A written whole number with zeros in front, behind its sign, up to a width. -/
def padded (width : Int) (cs : List Char) : List Char :=
  let zeros := List.replicate (width.toNat - cs.length) '0'
  match cs with
  | '-' :: rest => '-' :: (zeros ++ rest)
  | _ => zeros ++ cs

end Whole

end FaultDesk
