import FaultDesk.Number.Whole
import FaultDesk.Register.Basic

/-!
The numbers of complaints: the first part of the number, and digits padded with zeros. The next
number follows the highest one among the longest with the same first part.
-/

namespace FaultDesk

namespace Text

/-- A letter in lower case, when it is an ASCII one. -/
def folded (c : Char) : Char := c.toLower

/-- Whether a text starts with another, small and capital ASCII letters being the same. -/
def startsLike (head s : String) : Bool :=
  (head.toList.map folded).isPrefixOf (s.toList.map folded)

end Text

/-- How complaint numbers are made. -/
structure Numbering where
  head : String
  start : Int
  width : Int
deriving DecidableEq, Repr

/-- Why there is no next number. -/
inductive NumberFault where
  /-- A setting or a number in use cannot be read. -/
  | failed (cause : Failure)
  /-- Every number that was tried is taken. -/
  | noneFree
deriving DecidableEq, Repr

namespace Numbering

def headKey : String := "COMPLAINT_ID_PREFIX"
def startKey : String := "COMPLAINT_ID_START_NUMBER"
def widthKey : String := "COMPLAINT_ID_LENGTH"

/-- How many numbers are looked at, and how many are tried. -/
def attempts : Nat := 20

/-- The value of a setting; an empty one counts as missing. -/
def setting? (r : Register) (key : String) : Option String := do
  let v ← (← r.setting? key).value
  if v.isEmpty then none else some v

/-- A whole number in a setting. -/
def wholeSetting (r : Register) (key : String) (default : Int) : Except Failure Int :=
  match setting? r key with
  | none => .ok default
  | some s => Whole.read s

/-- The numbering that the settings ask for. -/
def ofSettings (r : Register) : Except Failure Numbering := do
  let head := (setting? r headKey).getD "KSC"
  let start ← wholeSetting r startKey 1
  let width ← wholeSetting r widthKey 4
  return ⟨head, start, width⟩

/-- Whether a number goes before another: the longer one does, and of equally long ones the greater. -/
def before (a b : String) : Bool :=
  if a.length = b.length then decide (b ≤ a) else decide (b.length < a.length)

/-- The first of the numbers in use that start with the head, the longest ones first. -/
def longest (n : Numbering) (numbers : List String) : List String :=
  ((numbers.filter (Text.startsLike n.head)).mergeSort before).take attempts

/-- What follows the head. -/
def tail (n : Numbering) (number : String) : String :=
  String.ofList (number.toList.drop n.head.length)

/-- The first tail that is made of digits. -/
def highestTail? (n : Numbering) (numbers : List String) : Option String :=
  ((n.longest numbers).map n.tail).find? Text.allFigures

/-- The value to begin with. -/
def firstValue (n : Numbering) (numbers : List String) : Except Failure Int :=
  match n.highestTail? numbers with
  | some t => (Whole.read t).map (· + 1)
  | none => .ok n.start

/-- The complaint number of a value. -/
def number (n : Numbering) (value : Int) : Except Failure String := do
  let digits ← Whole.write value
  if Nat.pow 2 63 ≤ n.width then .error .wholeTooLarge
  else return n.head ++ String.ofList (Whole.padded n.width digits.toList)

/-- The first number from a value on that is not taken. -/
def freeFrom (n : Numbering) (numbers : List String) : Nat → Int → Except NumberFault String
  | 0, _ => .error .noneFree
  | tries + 1, value => do
    let s ← (n.number value).mapError .failed
    if numbers.contains s then freeFrom n numbers tries (value + 1) else return s

end Numbering

namespace Register

def numbers (r : Register) : List String := r.complaints.map (·.number)

/-- The number of the next complaint. -/
def nextNumber (r : Register) : Except NumberFault String :=
  match Numbering.ofSettings r with
  | .error e => .error (.failed e)
  | .ok n =>
    match n.firstValue r.numbers with
    | .error e => .error (.failed e)
    | .ok v => n.freeFrom r.numbers Numbering.attempts v

end Register

end FaultDesk
