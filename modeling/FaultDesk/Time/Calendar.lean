/-!
The proleptic Gregorian calendar in years 1 to 9999. Days are counted from the first day of year 1.
-/

namespace FaultDesk

/-- A day of the calendar. -/
structure Date where
  year : Nat
  month : Nat
  day : Nat
deriving DecidableEq, Repr

namespace Calendar

def isLeap (year : Nat) : Bool := year % 4 == 0 && (year % 100 != 0 || year % 400 == 0)

/-- The number of days in a month; an unknown month has none. -/
def daysIn (year month : Nat) : Nat :=
  match month with
  | 1 | 3 | 5 | 7 | 8 | 10 | 12 => 31
  | 4 | 6 | 9 | 11 => 30
  | 2 => if isLeap year then 29 else 28
  | _ => 0

/-- Days in the years before a year. -/
def daysBeforeYear (year : Nat) : Nat :=
  let y := year - 1
  y * 365 + y / 4 - y / 100 + y / 400

/-- Days of a year before a month. -/
def daysBeforeMonth (year : Nat) : Nat → Nat
  | 0 => 0
  | 1 => 0
  | m + 1 => daysBeforeMonth year m + daysIn year m

def isDate (year month day : Nat) : Bool :=
  decide (1 ≤ year) && decide (year ≤ 9999) && decide (1 ≤ day) && decide (day ≤ daysIn year month)

/-- The number of days in years 1 to 9999. -/
def dayLimit : Nat := daysBeforeYear 10000

/-- The month that holds a day of the year, counted from zero, and the day of that month. -/
def monthFrom (year : Nat) : Nat → Nat → Nat → Nat × Nat
  | 0, month, rest => (month, rest + 1)
  | fuel + 1, month, rest =>
    if rest < daysIn year month then (month, rest + 1)
    else monthFrom year fuel (month + 1) (rest - daysIn year month)

/-- The year that holds a day, found from cycles of 400, 100, 4 and 1 years. -/
def yearOf (n : Nat) : Nat :=
  let n400 := n / 146097
  let r400 := n % 146097
  let n100 := r400 / 36524
  let r100 := r400 % 36524
  let n4 := r100 / 1461
  let r4 := r100 % 1461
  let n1 := r4 / 365
  let y := n400 * 400 + n100 * 100 + n4 * 4 + n1
  if n100 = 4 ∨ n1 = 4 then y else y + 1

end Calendar

namespace Date

open Calendar

/-- The number of days before this one. -/
def number (d : Date) : Nat :=
  daysBeforeYear d.year + daysBeforeMonth d.year d.month + (d.day - 1)

/-- The day with that many days before it. -/
def ofNumber (n : Nat) : Date :=
  let y := yearOf n
  let (m, d) := monthFrom y 12 1 (n - daysBeforeYear y)
  ⟨y, m, d⟩

/-- The day of the week; zero is Monday. -/
def weekday (d : Date) : Nat := d.number % 7

/-- A number padded with zeros. -/
def pad (width n : Nat) : List Char :=
  let ds := Nat.toDigits 10 n
  List.replicate (width - ds.length) '0' ++ ds

def textChars (d : Date) : List Char := pad 4 d.year ++ '-' :: pad 2 d.month ++ '-' :: pad 2 d.day

/-- The date as `YYYY-MM-DD`. -/
def text (d : Date) : String := String.ofList d.textChars

end Date

end FaultDesk
