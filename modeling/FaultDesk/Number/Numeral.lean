import FaultDesk.Number.Double
import FaultDesk.Text.Blank
import FaultDesk.Text.Digit

/-!
Numerals: an optional sign, digits with an optional point, and an optional exponent, read as an
exact number. The readers differ only in what they let stand around the digits.
-/

namespace FaultDesk

/-- What a numeral says: `± digits · 10 ^ exponent`. -/
structure Numeral where
  negative : Bool
  digits : Nat
  exponent : Int
deriving DecidableEq, Repr

namespace Numeral

/-- The value of a run of decimal digits, most significant first. -/
def valueOf (cs : List Char) : Nat :=
  cs.foldl (fun v c => v * 10 + (c.toNat - 48)) 0

/-- A sign in front, if there is one, and what follows it. -/
def sign : List Char → Bool × List Char
  | '-' :: rest => (true, rest)
  | '+' :: rest => (false, rest)
  | rest => (false, rest)

/-- The exponent part of a numeral: nothing, or a mark, a sign and at least one digit. -/
def exponentPart : List Char → Option Int
  | [] => some 0
  | c :: rest =>
    if c = 'e' ∨ c = 'E' then
      let (negative, ds) := sign rest
      if ds ≠ [] ∧ ds.all Char.isDigit then
        some (if negative then -(valueOf ds : Int) else valueOf ds)
      else none
    else none

/-- Reads digits with an optional point and exponent; a digit must stand on one side of the
point. -/
def unsigned (negative : Bool) (cs : List Char) : Option Numeral :=
  let whole := cs.takeWhile Char.isDigit
  let rest := cs.dropWhile Char.isDigit
  let (part, tail) :=
    match rest with
    | '.' :: r => (r.takeWhile Char.isDigit, r.dropWhile Char.isDigit)
    | _ => ([], rest)
  if whole = [] ∧ part = [] then none
  else (exponentPart tail).map fun e => ⟨negative, valueOf (whole ++ part), e - part.length⟩

/-- Reads a numeral written in ASCII. -/
def read (cs : List Char) : Option Numeral :=
  let (negative, rest) := sign cs
  unsigned negative rest

def toDouble (n : Numeral) : Double := Double.ofDecimal n.negative n.digits n.exponent

/-- Every underscore stands between two digits. `after` says whether a digit went before. -/
def underscoresFit (after : Bool) : List Char → Bool
  | [] => true
  | '_' :: rest =>
    match rest with
    | c :: _ => after && c.isDigit && underscoresFit false rest
    | [] => false
  | c :: rest => underscoresFit c.isDigit rest

/-- Decimal digits of all scripts become ASCII ones; other characters stay. -/
def asciiDigits (cs : List Char) : List Char :=
  cs.map fun c => match decimalValue? c with
    | some v => Char.ofNat (48 + v)
    | none => c

def lowered (cs : List Char) : List Char := cs.map Char.toLower

def infinityWords : List (List Char) := ["inf".toList, "infinity".toList]

/-- Reads an ASCII number without blanks or underscores: a numeral, `nan`, `inf` or `infinity` in
any case. -/
def plainDouble? (cs : List Char) : Option Double :=
  let (negative, rest) := sign cs
  if infinityWords.contains (lowered rest) then some (.infinite negative)
  else if lowered rest = "nan".toList then some .nan
  else (unsigned negative rest).map toDouble

end Numeral

namespace Double

/-- Reads a text as a number: blanks around it, digits of any script and underscores between digits
are let through. -/
def ofText? (s : String) : Option Double :=
  let cs := Numeral.asciiDigits (Text.stripped s.toList)
  if Numeral.underscoresFit false cs then Numeral.plainDouble? (cs.filter (· ≠ '_')) else none

end Double

namespace Numeral

/-- Reads a whole number: blanks around it, a sign, digits of any script with single underscores
between them. -/
def int? (s : String) : Option Int :=
  let cs := asciiDigits (Text.stripped s.toList)
  let (negative, rest) := sign cs
  if underscoresFit false rest then
    let ds := rest.filter (· ≠ '_')
    if ds ≠ [] ∧ ds.all Char.isDigit then
      some (if negative then -(valueOf ds : Int) else valueOf ds)
    else none
  else none

end Numeral

end FaultDesk
