import FaultDesk.Rule.Basic

/-!
Checking rules as they stand in a configuration.
-/

namespace FaultDesk

namespace Condition

def words : List (String × Condition) := all.map fun c => (c.name, c)

end Condition

namespace Threshold

/-- What is wrong with a value that is neither a whole number, a number nor a text. -/
def refusal (d : Datum) : Checked Threshold :=
  let found {α : Type} (kind : String) (c : Checked α) : List Defect :=
    match c.under (.field kind) with
    | .valid _ => []
    | .invalid ds => ds
  .invalid (found "int" (Field.whole d) ++ found "float" (Field.number d) ++ found "str" (Field.text d))

/-- A whole number, a number or a text. A boolean counts as a whole number and a decimal as a number;
octets are read as the first of the three that they spell. -/
def check : Datum → Checked Threshold
  | .int n => .valid (whole n)
  | .float d => .valid (real d)
  | .text s => .valid (text s)
  | .truth b => .valid (whole (if b then 1 else 0))
  | .decimal x =>
    match x.toDouble? with
    | some y => .valid (real y)
    | none => refusal (.decimal x)
  | .bytes bs =>
    match Field.whole (.bytes bs), Field.number (.bytes bs), Field.text (.bytes bs) with
    | .valid n, _, _ => .valid (whole n)
    | _, .valid d, _ => .valid (real d)
    | _, _, .valid s => .valid (text s)
    | _, _, _ => refusal (.bytes bs)
  | d => refusal d

end Threshold

namespace Prerequisite

def check (d : Datum) : Checked Prerequisite :=
  (Field.entries (.notPart "Prerequisite") d).andThen fun es =>
    mk <$> Field.required es "tag" [] Field.anyText
      <*> Field.required es "value" [] Threshold.check
      <*> Field.optional es "condition" [] .equals (Field.word Condition.words)
      <*> Field.optional es "table" [] none (Field.orNull Field.text)

end Prerequisite

namespace Rule

open FaultDesk.Field

/-- The fields that all rules have. A rule for masters may leave the condition out. -/
def checkBase (es : List (Datum × Datum)) (condition : Checked Condition) (alarmKind : String) :
    Checked Rule :=
  mk <$> required es "tag" [] anyText
    <*> condition
    <*> required es "value" ["threshold"] Threshold.check
    <*> optional es "description" [] "" text
    <*> optional es "alarmType" ["alarm_kind"] alarmKind text
    <*> optional es "enabled" [] true truth
    <*> optional es "table" [] none (orNull text)
    <*> optional es "prerequisite" [] none (orNull Prerequisite.check)
    <*> optional es "duration" [] none (orNull Duration.check)
    <*> optional es "complaintType" ["complaint_type"] none (orNull text)
    <*> optional es "faultType" ["fault_type"] none (orNull text)

/-- The kind a rule names, when it names one, has to be its own. -/
def checkKind (es : List (Datum × Datum)) (kind : String) : Checked Unit :=
  optional es "kind" [] () (word [(kind, ())])

def requiredCondition (es : List (Datum × Datum)) : Checked Condition :=
  required es "condition" [] (word Condition.words)

def check (d : Datum) : Checked Rule :=
  (entries (.notPart "SimpleRule") d).andThen fun es =>
    (fun r _ => r) <$> checkBase es (requiredCondition es) "GENERAL" <*> checkKind es "simple"

end Rule

namespace RateRule

open FaultDesk.Field

/-- A percentage from 0 to 100. -/
def percentField (d : Datum) : Checked Double :=
  (number d).andThen fun x =>
    if !x.le (Double.ofNat 100) then .fail (.above "100")
    else if !Double.zero.le x then .fail (.below "0")
    else .valid x

/-- A length in hours, more than none. -/
def windowField (d : Datum) : Checked Double :=
  (number d).andThen fun x => if Double.zero.lt x then .valid x else .fail (.notAbove "0")

def defaultThresholdPercent : Double := Double.ofNat 80

def check (d : Datum) : Checked RateRule :=
  (entries (.notPart "RateRule") d).andThen fun es =>
    (fun r _ p w => ⟨r, p, w⟩) <$> Rule.checkBase es (Rule.requiredCondition es) "GENERAL"
      <*> Rule.checkKind es "rate"
      <*> optional es "thresholdPercent" ["threshold_percent"] defaultThresholdPercent percentField
      <*> optional es "windowHours" ["window_hours"] none (fun v => (windowField v).map some)

end RateRule

namespace MasterRule

open FaultDesk.Field

def check (d : Datum) : Checked MasterRule :=
  (entries (.notPart "MasterRule") d).andThen fun es =>
    (fun r _ p => ⟨r, p⟩)
      <$> Rule.checkBase es (optional es "condition" [] .equals (word Condition.words)) "CRITICAL"
      <*> Rule.checkKind es "master"
      <*> optional es "priority" [] blockingPriority whole

end MasterRule

namespace AnyRule

/-- Checks a rule of the kind it names, or else of the given one. -/
def check (kind : String) (d : Datum) : Checked AnyRule :=
  match kind with
  | "rate" => (RateRule.check d).map rate
  | "master" => (MasterRule.check d).map master
  | _ => (Rule.check d).map simple

end AnyRule

end FaultDesk
