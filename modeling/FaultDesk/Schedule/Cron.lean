import FaultDesk.Failure
import FaultDesk.Number.Numeral
import FaultDesk.Text.Case
import FaultDesk.Text.Quoted
import FaultDesk.Time.Stamp

/-!
Schedules in five fields: minute, hour, day, month and day of the week, Monday being 0. A time fits
when all five do. A field lists parts: `*`, `*/step`, `first`, `first-last`, `first/step`,
`first-last/step`, names of months and weekdays, and `last` for the last day of a month.
-/

namespace FaultDesk

inductive CronField where
  | minute
  | hour
  | day
  | month
  | weekday
deriving DecidableEq, Repr

namespace CronField

def name : CronField → String
  | minute => "minute"
  | hour => "hour"
  | day => "day"
  | month => "month"
  | weekday => "day_of_week"

def least : CronField → Nat
  | day | month => 1
  | _ => 0

def greatest : CronField → Nat
  | minute => 59
  | hour => 23
  | day => 31
  | month => 12
  | weekday => 6

def months : List String :=
  ["jan", "feb", "mar", "apr", "may", "jun", "jul", "aug", "sep", "oct", "nov", "dec"]

def weekdays : List String := ["mon", "tue", "wed", "thu", "fri", "sat", "sun"]

/-- The names a field knows, from its least value on, and what such a name is called. -/
def names? : CronField → Option (List String × String)
  | month => some (months, "month")
  | weekday => some (weekdays, "weekday")
  | _ => none

end CronField

inductive CronPart where
  /-- Every value, or every so-many-th from the least on. -/
  | every (step : Option Nat)
  /-- The values from `first` to `last`, or to the greatest, by steps. -/
  | range (first : Nat) (last step : Option Nat)
  | lastDay
deriving DecidableEq, Repr

/-- Why a schedule cannot be read. -/
inductive CronFault where
  | fieldCount (found : Nat)
  | unrecognized (part : String) (field : CronField)
  | zeroStep
  | descending
  | unknownName (kind name : String)
  | tooManyFigures (count : Nat)
  | longStep (part : String) (step : Nat) (range : Int)
  | belowLeast (part : String) (first least : Nat)
  | aboveGreatest (part : String) (last greatest : Nat)
deriving DecidableEq, Repr

namespace CronFault

def message : CronFault → String
  | fieldCount n => s!"Wrong number of fields; got {n}, expected 5"
  | unrecognized p f => "Unrecognized expression \"" ++ p ++ "\" for field \"" ++ f.name ++ "\""
  | zeroStep => "Increment must be higher than 0"
  | descending => "The minimum value in a range must not be higher than the maximum"
  | unknownName kind n => "Invalid " ++ kind ++ " name \"" ++ n ++ "\""
  | tooManyFigures n => (Failure.tooManyFigures n).message
  | longStep p s r => "Error validating expression " ++ Text.quoted p ++
      s!": the step value ({s}) is higher than the total range of the expression ({r})"
  | belowLeast p v n => "Error validating expression " ++ Text.quoted p ++
      s!": the first value ({v}) is lower than the minimum value ({n})"
  | aboveGreatest p v n => "Error validating expression " ++ Text.quoted p ++
      s!": the last value ({v}) is higher than the maximum value ({n})"

/-- What is said about a whole expression. -/
def messageFor (f : CronFault) (expression : String) : String :=
  "Invalid cron expression " ++ Text.quoted expression ++ ": " ++ f.message

end CronFault

namespace CronPart

/-- The digits at the head of a text, and what follows them. -/
def figures (cs : List Char) : List Char × List Char := (cs.takeWhile isDecimal, cs.dropWhile isDecimal)

/-- The digits behind a mark: none without the mark, and no answer when the mark has no digits. -/
def figuresAfter (mark : Char) (cs : List Char) : Option (Option (List Char) × List Char) :=
  match cs with
  | c :: rest =>
    if c = mark then
      let (ds, after) := figures rest
      if ds.isEmpty then none else some (some ds, after)
    else some (none, cs)
  | [] => some (none, cs)

def valueOf (ds : List Char) : Except CronFault Nat :=
  if 4300 < ds.length then .error (.tooManyFigures ds.length)
  else .ok (Numeral.valueOf (Numeral.asciiDigits ds))

def optionalValue (ds : Option (List Char)) : Except CronFault (Option Nat) :=
  match ds with
  | none => .ok none
  | some ds => (valueOf ds).map some

/-- A part has to lie within its field, and a step within what it steps through. -/
def inField (text : String) (f : CronField) (p : CronPart) : Except CronFault CronPart :=
  let check (step : Option Nat) (range : Int) : Except CronFault Unit :=
    match step with
    | none => .ok ()
    | some s => if range < s then .error (.longStep text s range) else .ok ()
  match p with
  | every step => do
    check step (f.greatest - f.least)
    return p
  | range first last step => do
    check step (f.greatest - f.least)
    if first < f.least then .error (.belowLeast text first f.least)
    else
      match last with
      | some l => if f.greatest < l then .error (.aboveGreatest text l f.greatest) else .ok ()
      | none => .ok ()
    let stop := match last with
      | some 0 => f.greatest
      | some l => l
      | none => f.greatest
    check step ((stop : Int) - first)
    return p
  | lastDay => .ok p

def refuseZero (step : Option Nat) : Except CronFault Unit :=
  if step = some 0 then .error .zeroStep else .ok ()

/-- A range by its parts; a single value without a step is its own end. -/
def span (first : Nat) (last step : Option Nat) : Except CronFault CronPart := do
  refuseZero step
  let last := if last.isNone ∧ step.isNone then some first else last
  match last with
  | some l => if l < first then .error .descending else .ok (range first last step)
  | none => .ok (range first last step)

/-- Reads `*` and `*/step`. -/
def star? (cs : List Char) : Option (Except CronFault CronPart) :=
  match cs with
  | '*' :: rest =>
    match figuresAfter '/' rest with
    | some (ds, []) => some do
      let step ← optionalValue ds
      refuseZero step
      return every step
    | _ => none
  | _ => none

/-- Reads a range of numbers. -/
def numbers? (cs : List Char) : Option (Except CronFault CronPart) := do
  let (first, rest) := figures cs
  if first.isEmpty then none
  else
    let (last, rest) ← figuresAfter '-' rest
    let (step, rest) ← figuresAfter '/' rest
    if rest.isEmpty then
      some do
        let step ← optionalValue step
        refuseZero step
        span (← valueOf first) (← optionalValue last) step
    else none

/-- Letters of a name: those of the alphabet, and the four that differ from one of them in case
only. -/
def isLetter (c : Char) : Bool := c.isAlpha || ['\u0130', '\u0131', '\u017f', '\u212a'].contains c

/-- The value of a name. -/
def named (f : CronField) (known : List String) (kind : String) (cs : List Char) :
    Except CronFault Nat :=
  let name := String.ofList cs
  match known.findIdx? (· == Text.lower name) with
  | some n => .ok (n + f.least)
  | none => .error (.unknownName kind name)

/-- Reads a range of names; what follows it is not looked at. -/
def names? (f : CronField) (cs : List Char) : Option (Except CronFault CronPart) := do
  let (known, kind) ← f.names?
  let first := cs.takeWhile isLetter
  let last := match cs.dropWhile isLetter with
    | '-' :: rest => rest.takeWhile isLetter
    | _ => []
  if first.isEmpty then none
  else
    some do
      let a ← named f known kind first
      let b ← if last.isEmpty then .ok none else (named f known kind last).map some
      span a b none

/-- Reads `last`, in any case; what follows it is not looked at. -/
def last? (f : CronField) (cs : List Char) : Option (Except CronFault CronPart) :=
  let folded := (cs.take 4).map fun c => if c = '\u017f' then 's' else c.toLower
  if f = .day ∧ folded = "last".toList then some (.ok lastDay) else none

/-- Reads one part of a field. -/
def read (f : CronField) (text : String) : Except CronFault CronPart :=
  let cs := text.toList
  match (star? cs).or ((numbers? cs).or ((names? f cs).or (last? f cs))) with
  | some p => do inField text f (← p)
  | none => .error (.unrecognized text f)

/-- Whether a value fits a part; `last` is the last day of the month. -/
def fits (f : CronField) (last : Nat) (value : Nat) : CronPart → Bool
  | every none => true
  | every (some step) => (value - f.least) % step == 0
  | range first stop step =>
    decide (first ≤ value) && (match stop with
      | some l => decide (value ≤ l)
      | none => true) &&
    (match step with
      | some s => (value - first) % s == 0
      | none => true)
  | lastDay => value == last

end CronPart

structure Cron where
  minute : List CronPart
  hour : List CronPart
  day : List CronPart
  month : List CronPart
  weekday : List CronPart
deriving DecidableEq, Repr

namespace Cron

/-- The words of a text: what blanks keep apart. -/
def words : List Char → List (List Char)
  | [] => []
  | c :: cs =>
    if isBlank c then words cs
    else
      match cs, words cs with
      | d :: _, w :: ws => if isBlank d then [c] :: w :: ws else (c :: w) :: ws
      | _, ws => [c] :: ws

/-- The parts of a field. -/
def field (f : CronField) (cs : List Char) : Except CronFault (List CronPart) :=
  ((String.ofList cs).splitOn ",").mapM (CronPart.read f)

/-- Reads a schedule. The month is looked at first, then day, weekday, hour and minute. -/
def read (expression : String) : Except CronFault Cron :=
  match words expression.toList with
  | [minute, hour, day, month, weekday] => do
    let month ← field .month month
    let day ← field .day day
    let weekday ← field .weekday weekday
    let hour ← field .hour hour
    let minute ← field .minute minute
    return ⟨minute, hour, day, month, weekday⟩
  | ws => .error (.fieldCount ws.length)

def fitsMonth (c : Cron) (month : Nat) : Bool := c.month.any (·.fits .month 0 month)

/-- Whether a day of a fitting month fits. -/
def fitsDay (c : Cron) (d : Date) : Bool :=
  c.day.any (·.fits .day (Calendar.daysIn d.year d.month) d.day) &&
    c.weekday.any (·.fits .weekday 0 d.weekday)

/-- The fitting minutes of a day, counted from midnight. -/
def minutes (c : Cron) : List Nat :=
  (List.range 1440).filter fun m =>
    c.hour.any (·.fits .hour 0 (m / 60)) && c.minute.any (·.fits .minute 0 (m % 60))

/-- The first fitting day from a day on, looked for in so many months. -/
def dayFrom (c : Cron) : Nat → Nat → Nat → Nat → Option Date
  | 0, _, _, _ => none
  | fuel + 1, year, month, day =>
    let found :=
      if c.fitsMonth month then
        (List.range' day (Calendar.daysIn year month + 1 - day)).find? fun d => c.fitsDay ⟨year, month, d⟩
      else none
    match found with
    | some d => some ⟨year, month, d⟩
    | none => if month = 12 then dayFrom c fuel (year + 1) 1 1 else dayFrom c fuel year (month + 1) 1

/-- The first fitting day from a day on. -/
def nextDay (c : Cron) (d : Date) : Option Date :=
  c.dayFrom ((10000 - d.year) * 12) d.year d.month d.day

def minuteOf (d : Date) (minute : Nat) : Instant := d.number * Span.day + minute * Span.minute

/-- No schedule is looked at before this year. -/
def firstYear : Nat := 1970

/-- The first fitting time at or after an instant, up to year 9999. -/
def next (c : Cron) (start : Instant) : Except Failure (Option Instant) :=
  match Instant.check? ((start + (Span.second - 1)) / Span.second * Span.second) with
  | none => .error .timeOutOfRange
  | some t =>
    let t := max t (Calendar.daysBeforeYear firstYear * Span.day)
    let today := (Stamp.naive t).date
    let later := c.minutes.filter fun m => t ≤ minuteOf today m
    let find (from_ : Date) (minutes : List Nat) : Option Instant := do
      let m ← minutes.head?
      return minuteOf (← c.nextDay from_) m
    .ok (match later, c.fitsMonth today.month && c.fitsDay today with
      | m :: _, true => some (minuteOf today m)
      | _, _ => if today.number + 1 < Calendar.dayLimit then
          find (Date.ofNumber (today.number + 1)) c.minutes else none)

/-- The times one after another from an instant on; at most so many, and none behind a missing
one. -/
def times (c : Cron) : Nat → Instant → Except Failure (List (Option Instant))
  | 0, _ => .ok []
  | count + 1, start => do
    match ← c.next start with
    | none => return [none]
    | some t => return some t :: (← times c count (t + 1))

/-- A schedule, or the failure that its text is. -/
def ofText (expression : String) : Except Failure Cron :=
  (read expression).mapError fun f => .badSchedule (f.messageFor expression)

end Cron

end FaultDesk
