import FaultDesk.Condition
import FaultDesk.Rule.Duration

/-!
Rules: what must be seen at a tag for a fault to be raised. A simple rule looks at one reading, a
rate rule at the share of readings in a window, a master rule speaks for the whole unit.
-/

namespace FaultDesk

/-- What a reading is compared with. -/
inductive Threshold where
  | whole (n : Int)
  | real (d : Double)
  | text (s : String)
deriving DecidableEq, Repr, Inhabited

namespace Threshold

def datum : Threshold → Datum
  | whole n => .int n
  | real d => .float d
  | text s => .text s

end Threshold

/-- A reading of another tag that a rule depends on. -/
structure Prerequisite where
  tag : String
  value : Threshold
  condition : Condition
  table : Option String
deriving DecidableEq, Repr, Inhabited

/-- What all rules have, and all of a simple rule. -/
structure Rule where
  tag : String
  condition : Condition
  threshold : Threshold
  description : String
  alarmKind : String
  enabled : Bool
  table : Option String
  prerequisite : Option Prerequisite
  duration : Option Duration
  complaintType : Option String
  faultType : Option String
deriving DecidableEq, Repr, Inhabited

namespace Rule

/-- Whether the rule waits until its condition has held for some time. -/
def gated (r : Rule) : Bool :=
  match r.duration with
  | none => false
  | some d => !d.isInstant

end Rule

/-- The length of the window of a rate rule that gives none, in hours. -/
def defaultWindowHours : Nat := 48

structure RateRule extends Rule where
  thresholdPercent : Double
  /-- None when the configuration leaves it out. -/
  window : Option Double
deriving DecidableEq, Repr, Inhabited

namespace RateRule

def windowHours (r : RateRule) : Double := r.window.getD (Double.ofNat defaultWindowHours)

end RateRule

/-- The priority of master rules that end the search. -/
def blockingPriority : Int := 1

structure MasterRule extends Rule where
  priority : Int
deriving DecidableEq, Repr, Inhabited

namespace MasterRule

def isBlocking (r : MasterRule) : Bool := r.priority == blockingPriority

end MasterRule

/-- A rule of any kind. -/
inductive AnyRule where
  | simple (rule : Rule)
  | rate (rule : RateRule)
  | master (rule : MasterRule)
deriving DecidableEq, Repr

namespace AnyRule

def kind : AnyRule → String
  | simple _ => "simple"
  | rate _ => "rate"
  | master _ => "master"

/-- What the rule has in common with all others. -/
def base : AnyRule → Rule
  | simple r => r
  | rate r => r.toRule
  | master r => r.toRule

end AnyRule

end FaultDesk
