import FaultDesk.Rule.Basic
import FaultDesk.Sample

/-!
The rules configuration: two groups of ordinary rules, the master rules, how winners are chosen,
which complaints count as closed, the faults worked out from the tables, and how a complaint is
written.
-/

namespace FaultDesk

/-- A rule that stands in a group. -/
inductive OrdinaryRule where
  | simple (rule : Rule)
  | rate (rule : RateRule)
deriving DecidableEq, Repr

namespace OrdinaryRule

def any : OrdinaryRule → AnyRule
  | simple r => .simple r
  | rate r => .rate r

def base : OrdinaryRule → Rule
  | simple r => r
  | rate r => r.toRule

def simple? : OrdinaryRule → Option Rule
  | simple r => some r
  | rate _ => none

def rate? : OrdinaryRule → Option RateRule
  | simple _ => none
  | rate r => some r

theorem base_any (r : OrdinaryRule) : r.any.base = r.base := by cases r <;> rfl

end OrdinaryRule

structure RuleGroup where
  enabled : Bool
  description : Option String
  rules : List OrdinaryRule
deriving Repr

namespace RuleGroup

def empty : RuleGroup := ⟨true, none, []⟩

/-- The enabled rules of an enabled group. -/
def activeRules (g : RuleGroup) : List OrdinaryRule :=
  if g.enabled then g.rules.filter (·.base.enabled) else []

end RuleGroup

structure RuleSets where
  digital : RuleGroup
  analog : RuleGroup
deriving Repr

namespace RuleSets

def empty : RuleSets := ⟨.empty, .empty⟩

/-- The active rules, digital group first. -/
def activeRules (s : RuleSets) : List OrdinaryRule := s.digital.activeRules ++ s.analog.activeRules

def simpleRules (s : RuleSets) : List Rule := s.activeRules.filterMap (·.simple?)

def rateRules (s : RuleSets) : List RateRule := s.activeRules.filterMap (·.rate?)

end RuleSets

/-- A unit that reports its communication tag as 0, was last seen some time ago and has sent no
analog reading since long, unless it has been silent for so long that it counts as gone. -/
structure CommunicationFault where
  enabled : Bool
  tag : String
  staleHours : Double
  analogSilenceHours : Double
  decommissionHours : Double
deriving Repr

namespace CommunicationFault

def standard : CommunicationFault :=
  ⟨true, "Tag8", Double.ofNat 1, Double.ofNat 24, Double.ofNat 1440⟩

end CommunicationFault

/-- A unit that has reported its power tag as 0 of late. -/
structure PowerFault where
  enabled : Bool
  tag : String
  lookbackMinutes : Double
deriving Repr

namespace PowerFault

def standard : PowerFault := ⟨true, "Tag16", Double.ofNat 60⟩

end PowerFault

structure ComputedFaults where
  communication : CommunicationFault
  power : PowerFault
deriving Repr

namespace ComputedFaults

def standard : ComputedFaults := ⟨.standard, .standard⟩

end ComputedFaults

/-- How the texts and fields of a complaint are made. -/
structure ComplaintMapping where
  titleTemplate : String
  descriptionTemplate : String
  priority : String
  status : String
  complaintType : String
  /-- Fields with fixed values. -/
  defaults : List (String × Datum)
deriving Repr

namespace ComplaintMapping

/-- A name between double braces. -/
def placeholder (name : String) : String :=
  String.ofList ('\x7b' :: '\x7b' :: (name.toList ++ ['\x7d', '\x7d']))

def standard : ComplaintMapping where
  titleTemplate := placeholder "Description" ++ " - RTU " ++ placeholder "RtuId"
  descriptionTemplate := placeholder "Description" ++ " detected on RTU " ++ placeholder "RtuId" ++
    " (tag " ++ placeholder "TagNumber" ++ ", value " ++ placeholder "Value" ++ ")"
  priority := "MEDIUM"
  status := "REGISTERED"
  complaintType := "Street Lighting"
  defaults := []

end ComplaintMapping

/-- How many winners a unit may have. -/
inductive WinnerPolicy where
  /-- The last hit of the unit. -/
  | single
  /-- The last hit of each tag. -/
  | perTag
deriving DecidableEq, Repr

namespace WinnerPolicy

def name : WinnerPolicy → String
  | single => "single"
  | perTag => "per_tag"

def words : List (String × WinnerPolicy) := [single, perTag].map fun p => (p.name, p)

end WinnerPolicy

structure Config where
  ruleSets : RuleSets
  masterRules : List MasterRule
  winnerPolicy : WinnerPolicy
  /-- Statuses, in upper case, of complaints that do not stop a new one. -/
  closedStatuses : List String
  computedFaults : ComputedFaults
  complaints : ComplaintMapping
deriving Repr

/-- Texts in order, each once. -/
def ascending (texts : List String) : List String :=
  (texts.mergeSort fun a b => decide (a ≤ b)).eraseReps

namespace Config

def closedByDefault : List String := ["CLOSED", "RESOLVED", "REJECTED"]

def standard : Config :=
  ⟨.empty, [], .single, closedByDefault, .standard, .standard⟩

def activeMasters (c : Config) : List MasterRule := c.masterRules.filter (·.enabled)

/-- The tags one rule can look at. -/
def tagsOf (r : Rule) : List String := r.tag :: (r.prerequisite.map (·.tag)).toList

/-- Every tag an active rule can look at. -/
def tagsOfInterest (c : Config) : List String :=
  ascending ((c.ruleSets.activeRules.map (·.base) ++ c.activeMasters.map (·.toRule)).flatMap tagsOf)

/-- The tag of a prerequisite bound to a table other than the digital one. -/
def analogPrerequisite? (r : Rule) : Option String := do
  let p ← r.prerequisite
  let t ← p.table
  if t.isEmpty ∨ SourceKind.ofTable t = .digital then none else some p.tag

/-- Tags read from the analog table where both tables have them: those of analog rules and of
prerequisites bound to the analog table, but not those of master rules. -/
def analogTags (c : Config) : List String :=
  let masters := c.activeMasters.map (·.tag)
  let own := c.ruleSets.analog.activeRules.map (·.base.tag)
  let bound := c.ruleSets.activeRules.filterMap (analogPrerequisite? ·.base)
  (ascending (own ++ bound)).filter (!masters.contains ·)

/-- The rate rule with the longest window; of equal ones the first. -/
def widest : List RateRule → Option RateRule
  | [] => none
  | r :: rest => some (rest.foldl (fun best x => if best.windowHours.lt x.windowHours then x else best) r)

/-- The longest window of an active rate rule in hours; zero when there is none. -/
def maxWindowHours (c : Config) : Double :=
  ((widest c.ruleSets.rateRules).map (·.windowHours)).getD Double.zero

/-- The first active master rule for a tag. -/
def masterFor (c : Config) (tag : Datum) : Option MasterRule :=
  c.activeMasters.find? fun r => r.tag == tag.shown

end Config

end FaultDesk
