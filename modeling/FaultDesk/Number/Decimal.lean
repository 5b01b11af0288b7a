import FaultDesk.Number.Numeral

/-!
Decimal numbers that keep the digits they were written with: `1.50` and `1.5` differ in text and
not in value. A number may also be infinite or a quiet or signaling NaN with a payload.
-/

namespace FaultDesk

inductive Decimal where
  /-- The number `± digits · 10 ^ exponent`. -/
  | finite (negative : Bool) (digits : Nat) (exponent : Int)
  | infinite (negative : Bool)
  | nan (negative signaling : Bool) (payload : Nat)
deriving DecidableEq, Repr

namespace Decimal

/-- Reads a decimal; blanks around it are dropped and underscores anywhere are skipped. -/
def ofText? (s : String) : Option Decimal :=
  let cs := Numeral.asciiDigits ((Text.stripped s.toList).filter (· ≠ '_'))
  let (negative, rest) := Numeral.sign cs
  let low := Numeral.lowered rest
  let payload? (ds : List Char) : Option Nat :=
    if ds.all Char.isDigit then some (Numeral.valueOf ds) else none
  if Numeral.infinityWords.contains low then some (.infinite negative)
  else if low.take 3 = "nan".toList then (payload? (low.drop 3)).map (.nan negative false)
  else if low.take 4 = "snan".toList then (payload? (low.drop 4)).map (.nan negative true)
  else (Numeral.unsigned negative rest).map fun n => .finite n.negative n.digits n.exponent

/-- The text: plain when the exponent is not positive and no more than five zeros follow the point,
otherwise with one digit before the point and an exponent. -/
def text : Decimal → String
  | .infinite n => if n then "-Infinity" else "Infinity"
  | .nan n s p =>
    (if n then "-" else "") ++ (if s then "sNaN" else "NaN") ++ (if p = 0 then "" else toString p)
  | .finite n d e =>
    let ds := Nat.toDigits 10 d
    let left : Int := ds.length + e
    let body :=
      if e ≤ 0 ∧ -6 < left then
        if e = 0 then ds
        else if left ≤ 0 then '0' :: '.' :: (List.replicate left.natAbs '0' ++ ds)
        else ds.take left.natAbs ++ '.' :: ds.drop left.natAbs
      else
        let tail := ds.drop 1
        let shown := left - 1
        ds.take 1 ++ (if tail.isEmpty then [] else '.' :: tail) ++
          'E' :: (if shown < 0 then '-' else '+') :: Nat.toDigits 10 shown.natAbs
    String.ofList ((if n then ['-'] else []) ++ body)

/-- The nearest binary64 number; a signaling NaN has none. -/
def toDouble? : Decimal → Option Double
  | .finite n d e => some (Double.ofDecimal n d e)
  | .infinite n => some (.infinite n)
  | .nan _ false _ => some .nan
  | .nan _ true _ => none

def isFinite : Decimal → Bool
  | .finite .. => true
  | _ => false

/-- The value of a finite decimal that is a whole number. As many places behind the point as there are
digits leave a fraction. -/
def whole? : Decimal → Option Int
  | .finite n d e =>
    let signed (m : Nat) : Int := if n then -(m : Int) else m
    if d = 0 then some 0
    else if 0 ≤ e then some (signed (d * Nat.pow 10 e.natAbs))
    else if (Nat.toDigits 10 d).length ≤ e.natAbs then none
    else if d % Nat.pow 10 e.natAbs = 0 then some (signed (d / Nat.pow 10 e.natAbs))
    else none
  | _ => none

/-- Whether a finite decimal is zero. -/
def isZero : Decimal → Bool
  | .finite _ d _ => d == 0
  | _ => false

end Decimal

end FaultDesk
