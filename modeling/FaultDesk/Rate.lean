import FaultDesk.Candidate
import FaultDesk.Matching

/-!
Rate rules: a fault is raised when enough of the readings in a window of time satisfy a condition.
-/

namespace FaultDesk

/-- What a column of values holds, as far as its values have been looked at. -/
structure ColumnKind where
  hasNull : Bool
  hasFloat : Bool
  hasNan : Bool
  hasWhole : Bool
  hasTruth : Bool
  hasNegative : Bool
  hasHuge : Bool

namespace ColumnKind

def start : ColumnKind := ⟨false, false, false, false, false, false, false⟩

/-- Looks at one more whole number, given the binary64 number nearest to it. -/
def addWhole (k : ColumnKind) (n : Int) : Double → Except Failure (Option ColumnKind)
  | .infinite _ => .error .wholeTooLarge
  | _ =>
    let k := { k with hasWhole := true }
    if k.hasNull then .ok (some k)
    else
      let k := { k with hasNegative := k.hasNegative || decide (n < 0),
                        hasHuge := k.hasHuge || decide (Nat.pow 2 63 ≤ n) }
      .ok (if (k.hasNegative ∧ k.hasHuge) ∨ n ≥ Nat.pow 2 64 ∨ n < -(Nat.pow 2 63) then none
        else some k)

/-- Looks at one more value. None when the column has to keep its values as they are. -/
def add (k : ColumnKind) : Datum → Except Failure (Option ColumnKind)
  | .null => .ok (some { k with hasNull := true })
  | .float d =>
    .ok (some (if d.isNan then { k with hasNan := true, hasFloat := true }
      else { k with hasFloat := true }))
  | .truth _ => .ok (some { k with hasTruth := true })
  | .int n => k.addWhole n (Double.ofInt n)
  | _ => .ok none

/-- Looks at all values; none as soon as the column has to keep its values. -/
def ofValues : ColumnKind → List Datum → Except Failure (Option ColumnKind)
  | k, [] => .ok (some k)
  | k, v :: vs => do
    match ← k.add v with
    | none => return none
    | some k => ofValues k vs

/-- Whether the values of the column all become floats. -/
def becomesFloat (k : ColumnKind) : Bool :=
  !k.hasTruth && (k.hasFloat || k.hasNan || (k.hasNull && k.hasWhole))

end ColumnKind

/-- A value of a column of floats. -/
def floatCell : Datum → Datum
  | .null => .float .nan
  | .int n => .float (Double.ofInt n)
  | d => d

/-- The values of a column. Numbers and nulls together become floats, unless a value of another kind
is among them. -/
def tabulated (values : List Datum) : Except Failure (List Datum) := do
  match ← ColumnKind.ofValues .start values with
  | some k => return if k.becomesFloat then values.map floatCell else values
  | none => return values

/-- A history of readings in the form rate rules look at. -/
structure History where
  tags : List String
  values : List Datum
  times : List Instant

namespace History

def ofSamples (samples : List Sample) : Except Failure History := do
  return ⟨samples.map (·.tag), ← tabulated (samples.map (·.value)), samples.map (·.time)⟩

/-- The readings of a tag from some instant on. -/
def window (h : History) (tag : String) (since : Instant) : List Datum :=
  ((h.tags.zip (h.values.zip h.times)).filter fun (g, _, t) => g == tag && decide (since ≤ t)).map
    fun (_, v, _) => v

end History

/-- How many values satisfy a rule's condition. -/
def countHolding (r : Rule) : List Datum → Except Failure Nat
  | [] => .ok 0
  | v :: vs => do
    let b ← r.holdsFor v
    let n ← countHolding r vs
    return if b then n + 1 else n

namespace RateRule

/-- The share of the readings in the window that satisfy the condition; none when there are no
readings. -/
def stats? (r : RateRule) (h : History) (since : Instant) : Except Failure (Option RateStats) := do
  let values := h.window r.tag since
  if values.isEmpty then return none
  else return some (.ofCounts (← countHolding r.toRule values) values.length)

/-- The start of the window that ends now. -/
def windowStart (r : RateRule) (now : Instant) : Except Failure Instant := do
  Span.from? now (-(← Span.hours r.windowHours))

/-- Whether the share of readings reaches the rule's percentage. -/
def share (r : RateRule) (h : History) (now : Instant) : Except Failure (Option RateStats) := do
  match ← r.stats? h (← r.windowStart now) with
  | none => return none
  | some s => return if s.percent.lt r.thresholdPercent then none else some s

/-- The timer part of a verdict: none when the condition does not hold now, else whether it has held
long enough. -/
def gate (r : RateRule) (s : Sample) (t : Timers) : Except Failure (Option Bool) × Timers :=
  if r.gated then
    match r.timerKey s.unit with
    | .error e => (.error e, t)
    | .ok k =>
      match r.holdsFor s.value with
      | .error e => (.error e, t)
      | .ok false => (.ok none, t.clear k)
      | .ok true =>
        match t.sustained k r.duration (.utc s.time) none with
        | (.error e, t) => (.error e, t)
        | (.ok b, t) => (.ok (some b), t)
  else (.ok (some true), t)

/-- One rule's verdict on a sample that it watches. -/
def verdict (r : RateRule) (s : Sample) (related : List Sample) (h : History) (now : Instant)
    (t : Timers) : Except Failure (Option RateStats) × Timers :=
  match r.prerequisiteHolds s related with
  | .error e => (.error e, t)
  | .ok false => (.ok none, t)
  | .ok true =>
    match r.gate s t with
    | (.error e, t) => (.error e, t)
    | (.ok none, t) => (.ok none, t)
    | (.ok (some sustained), t) =>
      (do
        match ← r.share h now with
        | none => return none
        | some st => return if sustained then some st else none, t)

end RateRule

/-- The first of the rules that a sample's history triggers. -/
def rateFrom (s : Sample) (related : List Sample) (h : History) (now : Instant) :
    List RateRule → Timers → Option Candidate × Timers
  | [], t => (none, t)
  | r :: rest, t =>
    match r.verdict s related h now t with
    | (.ok (some st), t) => (some (.ofSample s (.rate r) (some st)), t)
    | (_, t) => rateFrom s related h now rest t

/-- The first rate rule that watches the sample and is triggered, on a history in form. -/
def firstRateIn (s : Sample) (related : List Sample) (h : History) (now : Instant)
    (rules : List RateRule) (t : Timers) : Option Candidate × Timers :=
  rateFrom s related h now (rules.filter fun r => r.watches s) t

/-- The same on past readings. They are put in form only when some rule watches the sample. -/
def firstRate (s : Sample) (related : List Sample) (history : List Sample) (now : Instant)
    (rules : List RateRule) (t : Timers) : Except Failure (Option Candidate) × Timers :=
  if rules.any fun r => r.watches s then
    match History.ofSamples history with
    | .error e => (.error e, t)
    | .ok h =>
      let (c, t) := firstRateIn s related h now rules t
      (.ok c, t)
  else (.ok none, t)

end FaultDesk
