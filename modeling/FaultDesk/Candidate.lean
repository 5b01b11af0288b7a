import FaultDesk.Number.Shortest
import FaultDesk.Rule.Basic
import FaultDesk.Sample

/-!
Fault candidates: what a rule has found, with the share of readings behind it for a rate rule.
-/

namespace FaultDesk

/-- How many of the readings in a window satisfied a condition. -/
structure RateStats where
  matched : Nat
  total : Nat
  percent : Double
deriving DecidableEq, Repr

namespace RateStats

/-- The stats of so many among so many readings. -/
def ofCounts (matched total : Nat) : RateStats :=
  ⟨matched, total, Double.ofRatio false (matched * 100) total⟩

/-- The percentage with two places. -/
def display (s : RateStats) : String := s.percent.hundredths

end RateStats

structure Candidate where
  unit : String
  tag : String
  value : Datum
  time : Instant
  rule : AnyRule
  stats : Option RateStats
  kind : SourceKind
deriving Repr

namespace Candidate

/-- What a rule has found in a sample; the tag is the rule's. -/
def ofSample (s : Sample) (rule : AnyRule) (stats : Option RateStats) : Candidate :=
  ⟨s.unit, rule.base.tag, s.value, s.time, rule, stats, s.kind⟩

/-- What a candidate is told apart by. -/
def key (c : Candidate) : String × String := (c.unit, c.tag)

/-- The fields of a candidate as they are written out. -/
def fields (c : Candidate) : List (String × Datum) :=
  [("unit_id", .text c.unit), ("tag", .text c.tag), ("value", c.value),
    ("event_time", .stamp (.utc c.time)), ("description", .text c.rule.base.description),
    ("alarm_kind", .text c.rule.base.alarmKind), ("source_kind", .text c.kind.name),
    ("stats", match c.stats with
      | none => .null
      | some s => .object [("match_count", .int s.matched), ("sample_count", .int s.total),
          ("percent", .text s.display)])]

end Candidate

end FaultDesk
