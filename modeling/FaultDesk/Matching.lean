import FaultDesk.Rule.Basic
import FaultDesk.Sample
import FaultDesk.Timer.Basic

/-!
Simple rules against one sample: tag and table, prerequisite, condition, and then the time the
condition has to hold. The first rule that completes all of it wins; one whose evaluation fails
counts as not matching.
-/

namespace FaultDesk

namespace Prerequisite

/-- The reading a prerequisite looks at: the sample's own row first, then the sample itself, then,
for one bound to a table, the first related sample of a fitting kind. -/
def reading? (p : Prerequisite) (s : Sample) (related : List Sample) : Option Datum :=
  match (s.row.getD []).value? p.tag with
  | some v => some v
  | none =>
    if p.tag = s.tag then some s.value
    else
      match p.table with
      | none => none
      | some t =>
        if t.isEmpty then none
        else (related.find? fun r => r.tag == p.tag && r.kind.fits p.table).map (·.value)

/-- Whether the reading is there and satisfies the prerequisite. A reading that does not is put into a
message, and fails when it has no text. -/
def satisfied (p : Prerequisite) (s : Sample) (related : List Sample) : Except Failure Bool :=
  match p.reading? s related with
  | none => .ok false
  | some v =>
    match p.condition.eval v p.value.datum with
    | .ok false => v.written.map fun _ => false
    | result => result

end Prerequisite

namespace Rule

/-- Whether a rule looks at a sample at all. -/
def watches (r : Rule) (s : Sample) : Bool := r.enabled && r.tag == s.tag && s.kind.fits r.table

def prerequisiteHolds (r : Rule) (s : Sample) (related : List Sample) : Except Failure Bool :=
  match r.prerequisite with
  | none => .ok true
  | some p => p.satisfied s related

/-- Whether a rule's condition holds for a value. -/
def holdsFor (r : Rule) (v : Datum) : Except Failure Bool := r.condition.eval v r.threshold.datum

/-- The key of the timer that a rule is judged by at a unit. -/
def timerKey (r : Rule) (unit : String) : Except Failure TimerKey :=
  TimerKey.ofValues (.text unit) (.text r.tag) r.threshold.datum

/-- Drops the rule's timer at a unit. -/
def clearTimer (r : Rule) (unit : String) (t : Timers) : Except Failure Unit × Timers :=
  match r.timerKey unit with
  | .error e => (.error e, t)
  | .ok k => (.ok (), t.clear k)

/-- Asks the rule's timer at a unit whether the condition has held long enough. -/
def askTimer (r : Rule) (s : Sample) (t : Timers) : Except Failure Bool × Timers :=
  match r.timerKey s.unit with
  | .error e => (.error e, t)
  | .ok k => t.sustained k r.duration (.utc s.time) none

/-- One rule's verdict on a sample that it watches. -/
def verdict (r : Rule) (s : Sample) (related : List Sample) (t : Timers) :
    Except Failure Bool × Timers :=
  match r.prerequisiteHolds s related with
  | .error e => (.error e, t)
  | .ok false => (.ok false, t)
  | .ok true =>
    match r.holdsFor s.value with
    | .error e => (.error e, t)
    | .ok false =>
      if r.gated then
        match r.clearTimer s.unit t with
        | (.error e, t) => (.error e, t)
        | (.ok _, t) => (.ok false, t)
      else (.ok false, t)
    | .ok true => if r.gated then r.askTimer s t else (.ok true, t)

end Rule

/-- The first rule that matches a sample, with its position counted from `n`. -/
def matchFrom (s : Sample) (related : List Sample) : Nat → List Rule → Timers →
    Option (Nat × Rule) × Timers
  | _, [], t => (none, t)
  | n, r :: rest, t =>
    if r.watches s then
      match r.verdict s related t with
      | (.ok true, t) => (some (n, r), t)
      | (_, t) => matchFrom s related (n + 1) rest t
    else matchFrom s related (n + 1) rest t

/-- The first rule that matches a sample, with its position. -/
def firstMatch (s : Sample) (related : List Sample) (rules : List Rule) (t : Timers) :
    Option (Nat × Rule) × Timers := matchFrom s related 0 rules t

end FaultDesk
