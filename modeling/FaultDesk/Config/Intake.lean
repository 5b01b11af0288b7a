import FaultDesk.Config.Basic
import FaultDesk.Rule.Intake

/-!
Checking a configuration. Fields may be given under their written name or under their plain one; the
written name comes first.
-/

namespace FaultDesk

open FaultDesk.Field

namespace OrdinaryRule

/-- Entries that only rate rules have. -/
def rateKeys : List String := ["thresholdPercent", "threshold_percent", "windowHours", "window_hours"]

/-- The kind a rule of a group names, or else the one its entries show. -/
def kindOf (es : List (Datum × Datum)) : Datum :=
  (Datum.lookup "kind" es).getD
    (.text (if (find? rateKeys es).isSome then "rate" else "simple"))

def check : Datum → Checked OrdinaryRule
  | .mapping es =>
    let kind := kindOf es
    match kind with
    | .text "simple" => ((Rule.check (.mapping es)).map simple).under (.field "simple")
    | .text "rate" => ((RateRule.check (.mapping es)).map rate).under (.field "rate")
    | k => .fail (.unknownKind k.shown)
  | .decimal _ => .fail .noKind
  | _ => .fail .notFields

end OrdinaryRule

namespace RuleGroup

/-- The rules of a group; only a list will do. -/
def checkRules : Datum → Checked (List OrdinaryRule) := Field.list OrdinaryRule.check

def check (d : Datum) : Checked RuleGroup :=
  (entries (.notPart "RuleGroup") d).andThen fun es =>
    mk <$> optional es "enabled" [] true truth
      <*> optional es "description" [] none (orNull text)
      <*> optional es "rules" [] [] checkRules

end RuleGroup

namespace RuleSets

def check (d : Datum) : Checked RuleSets :=
  (entries (.notPart "RuleSets") d).andThen fun es =>
    mk <$> optional es "diRules" ["di_rules"] .empty RuleGroup.check
      <*> optional es "aiRules" ["ai_rules"] .empty RuleGroup.check

end RuleSets

namespace CommunicationFault

def check (d : Datum) : Checked CommunicationFault :=
  (entries (.notPart "CommunicationFaultConfig") d).andThen fun es =>
    mk <$> optional es "enabled" [] standard.enabled truth
      <*> optional es "tag" [] standard.tag text
      <*> optional es "staleHours" ["stale_hours"] standard.staleHours number
      <*> optional es "analogSilenceHours" ["analog_silence_hours"] standard.analogSilenceHours number
      <*> optional es "decommissionHours" ["decommission_hours"] standard.decommissionHours number

end CommunicationFault

namespace PowerFault

def check (d : Datum) : Checked PowerFault :=
  (entries (.notPart "PowerFaultConfig") d).andThen fun es =>
    mk <$> optional es "enabled" [] standard.enabled truth
      <*> optional es "tag" [] standard.tag text
      <*> optional es "lookbackMinutes" ["lookback_minutes"] standard.lookbackMinutes number

end PowerFault

namespace ComputedFaults

def check (d : Datum) : Checked ComputedFaults :=
  (entries (.notPart "ComputedFaults") d).andThen fun es =>
    mk <$> optional es "communication" [] .standard CommunicationFault.check
      <*> optional es "power" [] .standard PowerFault.check

end ComputedFaults

namespace ComplaintMapping

def check (d : Datum) : Checked ComplaintMapping :=
  (entries (.notPart "CmsMapping") d).andThen fun es =>
    mk <$> optional es "titleTemplate" ["title_template"] standard.titleTemplate text
      <*> optional es "descriptionTemplate" ["description_template"] standard.descriptionTemplate text
      <*> optional es "defaultPriority" ["default_priority"] standard.priority text
      <*> optional es "defaultStatus" ["default_status"] standard.status text
      <*> optional es "defaultComplaintType" ["default_complaint_type"] standard.complaintType text
      <*> optional es "defaults" [] [] fun v => (entries .notMapping v).andThen textKeyed

end ComplaintMapping

namespace MasterRule

/-- A rule in the list of master rules; whatever kind it names is not looked at. -/
def checkListed : Datum → Checked MasterRule
  | .mapping es => check (.mapping (es.filter fun (k, _) => match k with
      | .text s => s != "kind"
      | _ => true))
  | d => check d

end MasterRule

namespace Config

def checkEntries (es : List (Datum × Datum)) : Checked Config :=
  mk <$> optional es "ruleSets" ["rule_sets"] .empty RuleSets.check
    <*> optional es "masterRules" ["master_rules"] [] (Field.list MasterRule.checkListed)
    <*> optional es "winnerPolicy" ["winner_policy"] .single (word WinnerPolicy.words)
    <*> optional es "closedStatuses" ["closed_statuses"] closedByDefault
      (fun v => (Field.list text v).map (·.map Text.upper))
    <*> optional es "computedFaults" ["computed_faults"] .standard ComputedFaults.check
    <*> optional es "cmsMapping" ["cms_mapping"] .standard ComplaintMapping.check

end Config

/-- Why a configuration cannot be taken. -/
inductive ConfigFault where
  | notMapping
  | defects (found : List Defect)
deriving DecidableEq, Repr

namespace Config

/-- Checks a whole configuration. -/
def check : Datum → Except ConfigFault Config
  | .mapping es =>
    match checkEntries es with
    | .valid c => .ok c
    | .invalid ds => .error (.defects ds)
  | _ => .error .notMapping

end Config

end FaultDesk
