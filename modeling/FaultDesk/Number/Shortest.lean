import FaultDesk.Number.Double

/-!
The fewest decimal digits that read back as the same binary64 number, and the ways numbers are laid
out with them.
-/

namespace FaultDesk

/-- A positive decimal number `digits · 10 ^ exponent`. -/
structure Scaled where
  digits : Nat
  exponent : Int
deriving DecidableEq, Repr

namespace Scaled

/-- Trailing zeros move into the exponent. At most `fuel` of them are looked at. -/
def trim : Nat → Scaled → Scaled
  | 0, s => s
  | fuel + 1, s =>
    if s.digits ≠ 0 ∧ s.digits % 10 = 0 then trim fuel ⟨s.digits / 10, s.exponent + 1⟩ else s

/-- The digits of the number. -/
def figures (s : Scaled) : List Char := Nat.toDigits 10 s.digits

/-- The exponent of the leading digit. -/
def lead (s : Scaled) : Int := s.figures.length + s.exponent - 1

end Scaled

namespace Double

/-- The decimal point of the leading digit of `num / den`: the greatest `e` with
`10 ^ e ≤ num / den`, searched upward from below. -/
def leadFrom (num den : Nat) : Nat → Int → Int
  | 0, e => e
  | fuel + 1, e =>
    let next := e + 1
    let reached :=
      if next < 0 then decide (den ≤ num * Nat.pow 10 next.natAbs)
      else decide (den * Nat.pow 10 next.natAbs ≤ num)
    if reached then leadFrom num den fuel next else e

/-- The exponent of the leading decimal digit of a positive number of steps. -/
def leadOf (steps : Nat) : Int :=
  let binary : Int := (steps.log2 : Int) - 1074
  leadFrom steps unit 5 (binary * 30103 / 100000 - 2)

/-- The bounds, in quarter steps, between which decimal numbers read back as `steps`, and whether
the bounds themselves do. -/
def readBack (steps : Nat) : Nat × Nat × Bool :=
  let g := gap steps
  let below := if steps = Nat.pow 2 steps.log2 ∧ 1 < g then g / 2 else g
  (4 * steps - 2 * below, 4 * steps + 2 * g, steps / g % 2 == 0)

/-- Whether `digits · 10 ^ exponent` reads back as `steps`. -/
def readsBack (steps : Nat) (digits : Nat) (exponent : Int) : Bool :=
  let (low, high, closed) := readBack steps
  let num := 4 * unit * (if exponent < 0 then digits else digits * Nat.pow 10 exponent.natAbs)
  let den := if exponent < 0 then Nat.pow 10 exponent.natAbs else 1
  if closed then decide (low * den ≤ num) && decide (num ≤ high * den)
  else decide (low * den < num) && decide (num < high * den)

/-- The two neighbours of `steps` on the grid `10 ^ exponent`; of those that read back the nearer,
at a tie the even one. -/
def onGrid (steps : Nat) (exponent : Int) : Option Nat :=
  let num := if exponent < 0 then steps * Nat.pow 10 exponent.natAbs else steps
  let den := if exponent < 0 then unit else unit * Nat.pow 10 exponent.natAbs
  let low := num / den
  let near := roundedQuotient num den
  let far := if near = low then low + 1 else low
  if near ≠ 0 ∧ readsBack steps near exponent then some near
  else if far ≠ 0 ∧ readsBack steps far exponent then some far
  else none

/-- The first of the grids with one digit, two digits and so on that holds a number reading back. -/
def shortestFrom (steps : Nat) (lead : Int) : Nat → Nat → Scaled
  | 0, _ => ⟨steps, 0⟩
  | fuel + 1, count =>
    let exponent := lead - count
    match onGrid steps exponent with
    | some d => Scaled.trim 20 ⟨d, exponent⟩
    | none => shortestFrom steps lead fuel (count + 1)

/-- The fewest digits that read back as this positive number of steps, nearest to it. -/
def shortest (steps : Nat) : Scaled := shortestFrom steps (leadOf steps) 18 0

end Double

/-- How a number is written: which leading exponents are written without an exponent, what follows
a whole number, and how an exponent is written. -/
structure Layout where
  leastPlain : Int
  greatestPlain : Int
  wholeTail : List Char
  mark : Char
  /-- Whether the digits in front of an exponent have a point even when there is only one. -/
  pointBeforeMark : Bool
  exponentWidth : Nat
deriving Repr

namespace Layout

private def zeros (n : Nat) : List Char := List.replicate n '0'

/-- An exponent with its sign, padded to the width. -/
def exponentText (l : Layout) (e : Int) : List Char :=
  let ds := Nat.toDigits 10 e.natAbs
  (if e < 0 then '-' else '+') :: (zeros (l.exponentWidth - ds.length) ++ ds)

/-- A positive number in this layout. -/
def write (l : Layout) (s : Scaled) : List Char :=
  let ds := s.figures
  let lead := s.lead
  if l.leastPlain ≤ lead ∧ lead ≤ l.greatestPlain then
    if s.exponent ≥ 0 then ds ++ zeros s.exponent.natAbs ++ l.wholeTail
    else if lead ≥ 0 then
      let cut := ds.length - s.exponent.natAbs
      ds.take cut ++ '.' :: ds.drop cut
    else '0' :: '.' :: (zeros (lead.natAbs - 1) ++ ds)
  else
    let body :=
      match ds with
      | [] => []
      | [d] => if l.pointBeforeMark then [d, '.', '0'] else [d]
      | d :: rest => d :: '.' :: rest
    body ++ l.mark :: l.exponentText lead

end Layout

namespace Double

/-- The library's own layout: plain from `0.0001` up to below `10 ^ 16`, a whole number ends in
`.0`, an exponent has a sign and at least two digits. -/
def plainLayout : Layout := ⟨-4, 15, ['.', '0'], 'e', false, 2⟩

/-- The text of a number in a layout, given the words for the values that are not finite. -/
def textIn (l : Layout) (nanText posInf negInf : String) : Double → String
  | .nan => nanText
  | .infinite n => if n then negInf else posInf
  | .finite n s _ =>
    let sign := if n then ['-'] else []
    String.ofList (sign ++ (if s = 0 then '0' :: l.wholeTail else l.write (shortest s)))

/-- The number's text: the fewest digits that read back. -/
def text (d : Double) : String := textIn plainLayout "nan" "inf" "-inf" d

/-- So many places behind the point; the exact value is rounded, a half to the even neighbour. -/
def fixedChars (places steps : Nat) : List Char :=
  let c := roundedQuotient (steps * Nat.pow 10 places) unit
  let whole := Nat.toDigits 10 (c / Nat.pow 10 places)
  let ds := Nat.toDigits 10 (c % Nat.pow 10 places)
  if places = 0 then whole else whole ++ '.' :: (List.replicate (places - ds.length) '0' ++ ds)

/-- Two places behind the point. -/
def hundredths : Double → String
  | .nan => "nan"
  | .infinite n => if n then "-inf" else "inf"
  | .finite n s _ => String.ofList ((if n then ['-'] else []) ++ fixedChars 2 s)

/-- A positive number of steps rounded to so many digits, a half to the even neighbour. -/
def significant (count steps : Nat) : Scaled :=
  let exponent := leadOf steps + 1 - count
  let digits :=
    if exponent < 0 then roundedQuotient (steps * Nat.pow 10 exponent.natAbs) unit
    else roundedQuotient steps (unit * Nat.pow 10 exponent.natAbs)
  if digits < Nat.pow 10 count then ⟨digits, exponent⟩ else ⟨digits / 10, exponent + 1⟩

end Double

end FaultDesk
