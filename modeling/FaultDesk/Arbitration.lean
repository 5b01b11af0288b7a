import FaultDesk.Candidate
import FaultDesk.Matching

/-!
Master rules speak for a whole unit. What counts is the state at the latest reading and since when
it has lasted; a match of the first priority ends the search.
-/

namespace FaultDesk

namespace MasterRule

/-- Whether the rule looks at a sample; tags are compared by their text in keys. -/
def concerns (r : MasterRule) (s : Sample) : Bool :=
  Datum.normalOfText s.tag == Datum.normalOfText r.tag && s.kind.fits r.table

/-- Whether the rule's condition holds for a value; equality is that of the texts in keys. -/
def holdsAt (r : MasterRule) (v : Datum) : Except Failure Bool :=
  if r.condition = .equals then do
    return (← v.normalText) == (← r.threshold.datum.normalText)
  else r.holdsFor v

end MasterRule

/-- The unbroken run of matches that ends at a rule's latest reading. -/
structure ActiveRun where
  first : Sample
  latest : Sample
  /-- Whether a reading that does not match came before the run. -/
  interrupted : Bool

namespace ActiveRun

/-- Follows the run through samples in order of time. `run` is the first and the latest sample of
the run so far. -/
def follow (r : MasterRule) (run : Option (Sample × Sample)) (interrupted : Bool) :
    List Sample → Except Failure (Option ActiveRun)
  | [] => .ok (run.map fun (first, latest) => ⟨first, latest, interrupted⟩)
  | s :: rest =>
    if r.concerns s then
      match r.holdsAt s.value with
      | .error e => .error e
      | .ok true => follow r (some ((run.map (·.1)).getD s, s)) interrupted rest
      | .ok false => follow r none true rest
    else follow r run interrupted rest

def find (r : MasterRule) (samples : List Sample) : Except Failure (Option ActiveRun) :=
  follow r none false (Sample.sorted samples)

end ActiveRun

/-- A master rule and the sample it matches at. -/
structure MasterMatch where
  rule : MasterRule
  sample : Sample

namespace MasterMatch

def candidate (m : MasterMatch) : Candidate := .ofSample m.sample (.master m.rule) none

end MasterMatch

/-- What the master rules find in a unit. -/
structure Arbitration where
  blocking : Option MasterMatch
  collected : List MasterMatch

namespace Arbitration

/-- Whether ordinary rules are left out. -/
def suppresses (a : Arbitration) : Bool := a.blocking.isSome || !a.collected.isEmpty

end Arbitration

namespace MasterRule

/-- Whether the run has lasted long enough. A run that was interrupted starts its timer anew; a
computed sample is as old as its state and asks for no timer. -/
def ripe (r : MasterRule) (key : TimerKey) (run : ActiveRun) (t : Timers) :
    Except Failure Bool × Timers :=
  if run.latest.kind = .computed ∨ !r.gated then (.ok true, t)
  else
    let t := if run.interrupted then t.clear key else t
    t.sustained key r.duration (.utc run.latest.time) (some (.utc run.first.time))

/-- One rule's verdict on the samples of a unit. -/
def verdict (r : MasterRule) (unit : String) (samples : List Sample) (t : Timers) :
    Except Failure (Option MasterMatch) × Timers :=
  match r.timerKey unit with
  | .error e => (.error e, t)
  | .ok key =>
    match ActiveRun.find r samples with
    | .error e => (.error e, t)
    | .ok none => (.ok none, if r.gated then t.clear key else t)
    | .ok (some run) =>
      match r.ripe key run t with
      | (.error e, t) => (.error e, t)
      | (.ok false, t) => (.ok none, t)
      | (.ok true, t) => (.ok (some ⟨r, run.latest⟩), t)

end MasterRule

/-- Goes through the rules with what has been collected so far. -/
def arbitrateFrom (unit : String) (samples : List Sample) (collected : List MasterMatch) :
    List MasterRule → Timers → Except Failure Arbitration × Timers
  | [], t => (.ok ⟨none, collected⟩, t)
  | r :: rest, t =>
    if r.enabled then
      match r.verdict unit samples t with
      | (.error e, t) => (.error e, t)
      | (.ok none, t) => arbitrateFrom unit samples collected rest t
      | (.ok (some m), t) =>
        if r.isBlocking then (.ok ⟨some m, []⟩, t)
        else arbitrateFrom unit samples (collected ++ [m]) rest t
    else arbitrateFrom unit samples collected rest t

/-- What the master rules find in the samples of a unit. -/
def arbitrate (unit : String) (samples : List Sample) (rules : List MasterRule) (t : Timers) :
    Except Failure Arbitration × Timers := arbitrateFrom unit samples [] rules t

end FaultDesk
