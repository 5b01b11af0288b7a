import FaultDesk.Rule.Field
import FaultDesk.Text.Case
import FaultDesk.Time.Span

/-!
How long a condition has to hold. A duration is written as a number and the letter of a unit, such
as `5m`, `24h` or `2d`, or field by field.
-/

namespace FaultDesk

inductive DurationUnit where
  | second
  | minute
  | hour
  | day
deriving DecidableEq, Repr, Inhabited

namespace DurationUnit

def letter : DurationUnit → String
  | second => "s"
  | minute => "m"
  | hour => "h"
  | day => "d"

def seconds : DurationUnit → Nat
  | second => 1
  | minute => 60
  | hour => 3600
  | day => 86400

def words : List (String × DurationUnit) :=
  [second, minute, hour, day].map fun u => (u.letter, u)

end DurationUnit

/-- Whether a condition must have held all the time, or counts at once. -/
inductive DurationMode where
  | instant
  | continuous
deriving DecidableEq, Repr, Inhabited

namespace DurationMode

def name : DurationMode → String
  | instant => "instant"
  | continuous => "continuous"

def words : List (String × DurationMode) := [("instant", instant), ("continuous", continuous)]

end DurationMode

structure Duration where
  amount : Double
  unit : DurationUnit
  mode : DurationMode
deriving DecidableEq, Repr, Inhabited

namespace Duration

/-- Whether the condition counts at once. -/
def isInstant (d : Duration) : Bool := d.mode == .instant || d.amount.isZero

/-- The time a condition has to hold. -/
def span (d : Duration) : Except Failure Span := Span.seconds (d.amount.scale d.unit.seconds)

/-- The amount, without a fraction when it is whole, and the letter of the unit. -/
def text (d : Duration) : String :=
  (if d.amount.isWhole then (d.amount.whole?.map toString).getD "" else d.amount.text) ++
    d.unit.letter

/-- Splits a shorthand into its digits, with an optional fraction, and its unit letter. Blanks may
stand around both. -/
def split? (cs : List Char) : Option (List Char × Char) :=
  let cs := cs.dropWhile isBlank
  let whole := cs.takeWhile isDecimal
  let rest := cs.dropWhile isDecimal
  let (part, rest) :=
    match rest with
    | '.' :: r =>
      if (r.takeWhile isDecimal).isEmpty then ([], rest)
      else ('.' :: r.takeWhile isDecimal, r.dropWhile isDecimal)
    | _ => ([], rest)
  match rest.dropWhile isBlank with
  | letter :: tail =>
    if whole.isEmpty ∨ !tail.all isBlank then none
    else if letter.toNat = 0x17f ∨ "smhd".toList.contains letter.toLower then
      some (whole ++ part, letter)
    else none
  | [] => none

/-- The fields a shorthand stands for. -/
def shorthand (shown : Datum) (others : List (Datum × Datum)) : Checked (List (Datum × Datum)) :=
  match shown.written with
  | .error f => .fail (.invalid f.message)
  | .ok text =>
    match split? text.toList with
    | none => .fail (.invalid ("Invalid duration format: " ++ shown.shownInside ++
        " (expected e.g. 5m, 24h, 2d)"))
    | some (digits, letter) =>
      let amount := (Double.ofText? (String.ofList digits)).getD default
      .valid ((.text "amount", .float amount) ::
        (.text "unit", .text (String.ofList (lowerForm letter))) :: others)

/-- The fields of a duration written in any way. -/
def fields : Datum → Checked (List (Datum × Datum))
  | .text s => shorthand (.text s) []
  | .mapping es =>
    match Datum.lookup "value" es with
    | none => .valid es
    | some v =>
      if (Datum.lookup "amount" es).isSome then .valid es
      else shorthand v (es.filter fun (k, _) => match k with
        | .text s => s != "value" && s != "unit"
        | _ => true)
  | _ => .fail (.notPart "Duration")

/-- An amount; it must not be negative. -/
def amountField (d : Datum) : Checked Double :=
  (Field.number d).andThen fun a =>
    if a.lt Double.zero then .fail (.invalid "duration amount must not be negative") else .valid a

/-- Checks a duration. -/
def check (d : Datum) : Checked Duration :=
  (fields d).andThen fun es =>
    mk <$> Field.required es "amount" [] amountField
      <*> Field.optional es "unit" [] .minute (Field.word DurationUnit.words)
      <*> Field.optional es "mode" [] .continuous (Field.word DurationMode.words)

end Duration

end FaultDesk
