import FaultDesk.Config.Layout
import FaultDesk.Proofs.Config.Sound
import FaultDesk.Proofs.Datum.Entries
import FaultDesk.Proofs.Text.UpperCase

/-!
A checked configuration that has been laid out as a document is read back as it was, rule by rule and
field by field; only what had been left out is filled in.
-/

namespace FaultDesk

@[simp]
theorem Datum.lookup_entryOrNull (key name : String) (v : Option Datum) :
    lookup key (entriesOf (entryOrNull false name v)) = if name = key then v else none := by
  cases v with
  | none => exact (ite_self none).symm
  | some d => rfl

open Datum (entriesOf lookup_append lookup_cons lookup_nil lookup_entryOrNull)

/-! ## Fields that are there -/

namespace Checked

variable {α β : Type}

theorem andThen_valid (a : α) (f : α → Checked β) : (valid a).andThen f = f a := rfl

theorem fmap_valid (f : α → β) (a : α) : f <$> valid a = valid (f a) := rfl

theorem seq_valid (f : α → β) (a : α) : (valid f <*> valid a : Checked β) = valid (f a) := rfl

end Checked

namespace Field

variable {α β : Type} {es : List (Datum × Datum)} {name : String} {others : List String}
  {check : Datum → Checked α} {d : Datum} {a : α}

@[simp]
theorem find_nil (es : List (Datum × Datum)) : find? [] es = none := rfl

@[simp]
theorem find_cons (name : String) (others : List String) (es : List (Datum × Datum)) :
    find? (name :: others) es = (Datum.lookup name es).or (find? others es) := by
  unfold find?
  rw [List.findSome?_cons]
  cases Datum.lookup name es <;> rfl

theorem find_congr {names : List String} {es es' : List (Datum × Datum)}
    (h : ∀ name ∈ names, Datum.lookup name es = Datum.lookup name es') :
    find? names es = find? names es' := by
  induction names with
  | nil => rfl
  | cons name rest ih =>
    rw [find_cons, find_cons, h name List.mem_cons_self,
      ih fun n hn => h n (List.mem_cons_of_mem name hn)]

theorem required_found (h : find? (name :: others) es = some d) (hd : check d = .valid a) :
    required es name others check = .valid a := by
  rw [required, h]
  dsimp only
  rw [hd]
  rfl

theorem optional_found {default : α} (h : find? (name :: others) es = some d)
    (hd : check d = .valid a) : optional es name others default check = .valid a := by
  rw [optional, h]
  dsimp only
  rw [hd]
  rfl

/-- A field that is left out where it would be null. -/
theorem optional_orNull {x : Option α} {written : α → Datum}
    (h : find? (name :: others) es = x.map written)
    (hd : ∀ a, x = some a → orNull check (written a) = .valid (some a)) :
    optional es name others none (orNull check) = .valid x := by
  cases x with
  | none => rw [optional, h]; rfl
  | some a => exact optional_found h (hd a rfl)

theorem items_map {xs : List β} {written : β → Datum} {back : β → α}
    (h : ∀ x ∈ xs, check (written x) = .valid (back x)) (n : Int) :
    items check n (xs.map written) = .valid (xs.map back) := by
  induction xs generalizing n with
  | nil => rfl
  | cons x rest ih =>
    have hrest := ih (fun y hy => h y (List.mem_cons_of_mem x hy)) (n + 1)
    rw [List.map_cons, items, h x List.mem_cons_self, hrest]
    rfl

theorem textKeyed_entriesOf (fields : List (String × Datum)) :
    textKeyed (entriesOf fields) = .valid fields := by
  induction fields with
  | nil => rfl
  | cons e rest ih =>
    obtain ⟨name, v⟩ := e
    change (fun s rest => (s, v) :: rest) <$> Checked.valid name <*> textKeyed (entriesOf rest) = _
    rw [ih]
    rfl

end Field

/-! ## Parts of rules -/

theorem Condition.word_name (c : Condition) : Field.word words (.text c.name) = .valid c := by
  cases c <;> rfl

theorem Threshold.check_datum (v : Threshold) : check v.datum = .valid v := by
  cases v <;> rfl

theorem DurationUnit.word_letter (u : DurationUnit) : Field.word words (.text u.letter) = .valid u := by
  cases u <;> rfl

theorem DurationMode.word_name (m : DurationMode) : Field.word words (.text m.name) = .valid m := by
  cases m <;> rfl

theorem Duration.amountField_float {a : Double} (h : a.lt Double.zero = false) :
    amountField (.float a) = .valid a := by
  simp only [amountField, Field.number, Checked.andThen]
  rw [if_neg (by rw [h]; exact Bool.false_ne_true)]

theorem Duration.Sound.check_layout {d : Duration} (h : d.Sound) : check d.layout = .valid d := by
  obtain ⟨amount, unit, mode⟩ := d
  have hfields : fields (layout ⟨amount, unit, mode⟩) = .valid (entriesOf
      [("amount", .float amount), ("unit", .text unit.letter), ("mode", .text mode.name)]) := rfl
  rw [check, hfields, Checked.andThen_valid, Field.required_found rfl (amountField_float h),
    Field.optional_found rfl unit.word_letter, Field.optional_found rfl mode.word_name]
  rfl

/-- The fields of a document that a prerequisite has. -/
def Prerequisite.fields (p : Prerequisite) : List (String × Datum) :=
  [("tag", .text p.tag), ("value", p.value.datum), ("condition", .text p.condition.name)] ++
    entryOrNull false "table" (p.table.map .text)

theorem Prerequisite.check_layout (p : Prerequisite) : check (p.layout false) = .valid p := by
  have hentries : Field.entries (.notPart "Prerequisite") (p.layout false) =
      .valid (entriesOf p.fields) := rfl
  have htag : Field.required (entriesOf p.fields) "tag" [] Field.anyText = .valid p.tag := rfl
  have htable : Field.find? ["table"] (entriesOf p.fields) = p.table.map .text := by
    simp [fields]
  rw [check, hentries, Checked.andThen_valid, htag, Field.required_found rfl p.value.check_datum,
    Field.optional_found rfl p.condition.word_name,
    Field.optional_orNull htable fun c _ => rfl]
  simp only [Checked.fmap_valid, Checked.seq_valid]

/-! ## Rules -/

/-- The fields of a document that all rules have. -/
def Rule.fields (r : Rule) : List (String × Datum) :=
  [("tag", .text r.tag), ("condition", .text r.condition.name), ("value", r.threshold.datum),
      ("description", .text r.description), ("alarmType", .text r.alarmKind),
      ("enabled", .truth r.enabled)] ++
    entryOrNull false "table" (r.table.map .text) ++
    entryOrNull false "prerequisite" (r.prerequisite.map (·.layout false)) ++
    entryOrNull false "duration" (r.duration.map (·.layout)) ++
    entryOrNull false "complaintType" (r.complaintType.map .text) ++
    entryOrNull false "faultType" (r.faultType.map .text)

/-- The names under which these fields are looked for. -/
def Rule.names : List String :=
  ["tag", "condition", "value", "threshold", "description", "alarmType", "alarm_kind", "enabled",
    "table", "prerequisite", "duration", "complaintType", "complaint_type", "faultType", "fault_type"]

/-- The fields that rules of one kind have. -/
def AnyRule.ownFields (r : AnyRule) : List (String × Datum) :=
  ("kind", .text r.kind) ::
    match r with
    | .simple _ => []
    | .rate x => [("thresholdPercent", .float x.thresholdPercent), ("windowHours", .float x.windowHours)]
    | .master x => [("priority", .int x.priority)]

/-- A document of a rule. -/
def AnyRule.entries (r : AnyRule) : List (Datum × Datum) := entriesOf (r.base.fields ++ r.ownFields)

theorem AnyRule.layout_eq (r : AnyRule) : r.layout false = .mapping r.entries := by
  cases r <;> simp [layout, entries, Rule.fields, ownFields, Datum.object_eq]

/-- The fields that all rules have are read back where they are found under their names. -/
theorem Rule.checkBase_fields {r : Rule} (hr : r.Sound) {es : List (Datum × Datum)}
    (hes : ∀ name ∈ names, Datum.lookup name es = Datum.lookup name (entriesOf r.fields))
    {condition : Checked Condition} (hcondition : condition = .valid r.condition)
    (alarmKind : String) : checkBase es condition alarmKind = .valid r := by
  have hfind {given : List String} {v : Option Datum} (hgiven : ∀ name ∈ given, name ∈ names)
      (hv : Field.find? given (entriesOf r.fields) = v) : Field.find? given es = v :=
    (Field.find_congr fun name hname => hes name (hgiven name hname)).trans hv
  have htag : Field.required es "tag" [] Field.anyText = .valid r.tag :=
    Field.required_found (hfind (by decide) rfl) rfl
  have hthreshold : Field.required es "value" ["threshold"] Threshold.check = .valid r.threshold :=
    Field.required_found (hfind (by decide) rfl) r.threshold.check_datum
  have hdescription : Field.optional es "description" [] "" Field.text = .valid r.description :=
    Field.optional_found (hfind (by decide) rfl) rfl
  have hkind : Field.optional es "alarmType" ["alarm_kind"] alarmKind Field.text =
      .valid r.alarmKind :=
    Field.optional_found (hfind (by decide) rfl) rfl
  have henabled : Field.optional es "enabled" [] true Field.truth = .valid r.enabled :=
    Field.optional_found (hfind (by decide) rfl) rfl
  have htable : Field.find? ["table"] es = r.table.map .text :=
    hfind (by decide) (by simp [fields])
  have hprerequisite : Field.find? ["prerequisite"] es = r.prerequisite.map (·.layout false) :=
    hfind (by decide) (by simp [fields])
  have hduration : Field.find? ["duration"] es = r.duration.map (·.layout) :=
    hfind (by decide) (by simp [fields])
  have hcomplaint : Field.find? ["complaintType", "complaint_type"] es = r.complaintType.map .text :=
    hfind (by decide) (by simp [fields])
  have hfault : Field.find? ["faultType", "fault_type"] es = r.faultType.map .text :=
    hfind (by decide) (by simp [fields])
  rw [checkBase, htag, hcondition, hthreshold, hdescription, hkind, henabled,
    Field.optional_orNull htable fun _ _ => rfl,
    Field.optional_orNull hprerequisite fun p _ => congrArg (Checked.map some) p.check_layout,
    Field.optional_orNull hduration fun d hd => congrArg (Checked.map some) (hr d hd).check_layout,
    Field.optional_orNull hcomplaint fun _ _ => rfl, Field.optional_orNull hfault fun _ _ => rfl]
  simp only [Checked.fmap_valid, Checked.seq_valid]

theorem AnyRule.lookup_entries (r : AnyRule) :
    ∀ name ∈ Rule.names,
      Datum.lookup name r.entries = Datum.lookup name (entriesOf r.base.fields) := by
  intro name hname
  have hown : Datum.lookup name (entriesOf r.ownFields) = none := by
    apply Datum.lookup_eq_none
    revert name
    cases r <;> simp [Rule.names, ownFields]
  rw [entries, Datum.entriesOf_append, lookup_append, hown, Option.or_none]

theorem AnyRule.lookup_own {name : String} (r : AnyRule)
    (hname : Datum.lookup name (entriesOf r.base.fields) = none) :
    Datum.lookup name r.entries = Datum.lookup name (entriesOf r.ownFields) := by
  rw [entries, Datum.entriesOf_append, lookup_append, hname, Option.none_or]

theorem AnyRule.lookup_kind (r : AnyRule) : Datum.lookup "kind" r.entries = some (.text r.kind) := by
  rw [r.lookup_own (by simp [Rule.fields])]
  rfl

/-- The condition and the kind of a rule are read back. -/
theorem AnyRule.requiredCondition_entries (r : AnyRule) :
    Rule.requiredCondition r.entries = .valid r.base.condition := by
  have hfind : Field.find? ["condition"] r.entries = some (.text r.base.condition.name) := by
    rw [Field.find_congr fun name hname => r.lookup_entries name (by simp_all [Rule.names])]
    rfl
  exact Field.required_found hfind r.base.condition.word_name

theorem AnyRule.checkKind_entries (r : AnyRule) : Rule.checkKind r.entries r.kind = .valid () := by
  have hfind : Field.find? ["kind"] r.entries = some (.text r.kind) := by
    rw [Field.find_cons, r.lookup_kind]
    rfl
  exact Field.optional_found hfind (by cases r <;> rfl)

theorem Rule.check_layout {r : Rule} (hr : r.Sound) :
    check ((AnyRule.simple r).layout false) = .valid r := by
  have hentries : Field.entries (.notPart "SimpleRule") (.mapping (AnyRule.simple r).entries) =
      .valid (AnyRule.simple r).entries := rfl
  have hbase := checkBase_fields hr (AnyRule.simple r).lookup_entries
    (AnyRule.simple r).requiredCondition_entries "GENERAL"
  have hkind : checkKind (AnyRule.simple r).entries "simple" = .valid () :=
    (AnyRule.simple r).checkKind_entries
  rw [AnyRule.layout_eq, check, hentries, Checked.andThen_valid, hbase, hkind]
  rfl

/-- The rule with its window filled in. -/
def RateRule.filled (r : RateRule) : RateRule := { r with window := some r.windowHours }

theorem RateRule.windowHours_filled (r : RateRule) : r.filled.windowHours = r.windowHours := rfl

theorem RateRule.Sound.windowHours_pos {r : RateRule} (h : r.Sound) :
    Double.zero.lt r.windowHours = true := by
  cases hwindow : r.window with
  | none =>
    rw [windowHours, hwindow]
    decide +kernel
  | some w =>
    rw [windowHours, hwindow]
    exact h.window w hwindow

theorem RateRule.Sound.check_layout {r : RateRule} (hr : r.Sound) :
    check ((AnyRule.rate r).layout false) = .valid r.filled := by
  have hentries : Field.entries (.notPart "RateRule") (.mapping (AnyRule.rate r).entries) =
      .valid (AnyRule.rate r).entries := rfl
  have hbase := Rule.checkBase_fields hr.base (AnyRule.rate r).lookup_entries
    (AnyRule.rate r).requiredCondition_entries "GENERAL"
  have hkind : Rule.checkKind (AnyRule.rate r).entries "rate" = .valid () :=
    (AnyRule.rate r).checkKind_entries
  have hfind {name : String} (others : List String) {d : Datum}
      (hname : Datum.lookup name (entriesOf r.fields) = none)
      (hown : Datum.lookup name (entriesOf (AnyRule.rate r).ownFields) = some d) :
      Field.find? (name :: others) (AnyRule.rate r).entries = some d := by
    rw [Field.find_cons, (AnyRule.rate r).lookup_own hname, hown]
    rfl
  have hpercent : Field.optional (AnyRule.rate r).entries "thresholdPercent" ["threshold_percent"]
      defaultThresholdPercent percentField = .valid r.thresholdPercent := by
    refine Field.optional_found (hfind _ (by simp [Rule.fields]) rfl) ?_
    simp [percentField, Field.number, Checked.andThen, hr.most, hr.least]
  have hwindow : Field.optional (AnyRule.rate r).entries "windowHours" ["window_hours"] none
      (fun v => (windowField v).map some) = .valid (some r.windowHours) := by
    refine Field.optional_found (hfind _ (by simp [Rule.fields]) rfl) ?_
    simp [windowField, Field.number, Checked.andThen, Checked.map, hr.windowHours_pos]
  rw [AnyRule.layout_eq, check, hentries, Checked.andThen_valid, hbase, hkind, hpercent, hwindow]
  rfl

/-! ## Master rules -/

/-- The fields of a rule in the list of master rules that are looked at. -/
def MasterRule.listedFields (r : MasterRule) : List (String × Datum) :=
  (r.fields ++ (AnyRule.master r).ownFields).filter fun f => f.1 != "kind"

theorem MasterRule.checkListed_eq (r : MasterRule) :
    checkListed ((AnyRule.master r).layout false) = check (.mapping (entriesOf r.listedFields)) := by
  rw [AnyRule.layout_eq, checkListed, listedFields, AnyRule.entries, entriesOf, entriesOf,
    List.filter_map]
  rfl

theorem MasterRule.lookup_listed (r : MasterRule) {name : String} (hname : name ≠ "kind") :
    Datum.lookup name (entriesOf r.listedFields) = Datum.lookup name (AnyRule.master r).entries := by
  rw [listedFields, Datum.lookup_filter (· != "kind"), if_pos (bne_iff_ne.mpr hname)]
  rfl

theorem MasterRule.checkListed_layout {r : MasterRule} (hr : r.toRule.Sound) :
    checkListed ((AnyRule.master r).layout false) = .valid r := by
  have hentries : Field.entries (.notPart "MasterRule") (.mapping (entriesOf r.listedFields)) =
      .valid (entriesOf r.listedFields) := rfl
  -- The kind is taken out of the list of master rules, and no field is looked for under its name.
  have hnames : ∀ name ∈ Rule.names, Datum.lookup name (entriesOf r.listedFields) =
      Datum.lookup name (entriesOf r.fields) := by
    intro name hname
    rw [r.lookup_listed (by rintro rfl; revert hname; decide)]
    exact (AnyRule.master r).lookup_entries name hname
  have hcondition : Field.optional (entriesOf r.listedFields) "condition" [] .equals
      (Field.word Condition.words) = .valid r.condition := by
    refine Field.optional_found ?_ r.condition.word_name
    rw [Field.find_congr fun name hname => hnames name (by simp_all [Rule.names])]
    rfl
  have hkind : Rule.checkKind (entriesOf r.listedFields) "master" = .valid () := by
    rw [Rule.checkKind, Field.optional, Field.find_cons, listedFields,
      Datum.lookup_filter (· != "kind")]
    rfl
  have hpriority : Field.optional (entriesOf r.listedFields) "priority" [] blockingPriority
      Field.whole = .valid r.priority := by
    have hfind : Field.find? ["priority"] (entriesOf r.listedFields) = some (.int r.priority) := by
      rw [Field.find_cons, r.lookup_listed (by decide),
        (AnyRule.master r).lookup_own (by simp [Rule.fields, AnyRule.base])]
      rfl
    exact Field.optional_found hfind rfl
  rw [checkListed_eq, check, hentries, Checked.andThen_valid,
    Rule.checkBase_fields hr hnames hcondition "CRITICAL", hkind, hpriority]
  rfl

/-! ## Groups -/

namespace OrdinaryRule

/-- The rule with its window filled in, when it has one. -/
def filled : OrdinaryRule → OrdinaryRule
  | simple r => simple r
  | rate r => rate r.filled

theorem kindOf_entries (r : AnyRule) : kindOf r.entries = .text r.kind := by
  rw [kindOf, r.lookup_kind]
  rfl

theorem Sound.check_layout {r : OrdinaryRule} (hr : r.Sound) :
    check (r.any.layout false) = .valid r.filled := by
  cases r with
  | simple r =>
    have hlayout := Rule.check_layout hr
    rw [AnyRule.layout_eq] at hlayout
    rw [any, AnyRule.layout_eq, check, kindOf_entries]
    exact congrArg (fun x => (Checked.map simple x).under (.field "simple")) hlayout
  | rate r =>
    have hlayout := RateRule.Sound.check_layout hr
    rw [AnyRule.layout_eq] at hlayout
    rw [any, AnyRule.layout_eq, check, kindOf_entries]
    exact congrArg (fun x => (Checked.map rate x).under (.field "rate")) hlayout

end OrdinaryRule

namespace RuleGroup

/-- The group with the windows of its rules filled in. -/
def filled (g : RuleGroup) : RuleGroup := { g with rules := g.rules.map (·.filled) }

/-- The fields of a document that a group has. -/
def fields (g : RuleGroup) : List (String × Datum) :=
  [("enabled", .truth g.enabled)] ++
    entryOrNull false "description" (g.description.map .text) ++
    [("rules", .list (g.rules.map (·.any.layout false)))]

theorem Sound.check_layout {g : RuleGroup} (hg : g.Sound) : check (g.layout false) = .valid g.filled := by
  have hentries : Field.entries (.notPart "RuleGroup") (g.layout false) =
      .valid (entriesOf g.fields) := rfl
  have henabled : Field.optional (entriesOf g.fields) "enabled" [] true Field.truth =
      .valid g.enabled := rfl
  have hdescription : Field.find? ["description"] (entriesOf g.fields) = g.description.map .text := by
    simp [fields]
  have hrules : Field.find? ["rules"] (entriesOf g.fields) =
      some (.list (g.rules.map (·.any.layout false))) := by
    simp [fields]
  have hread : checkRules (.list (g.rules.map (·.any.layout false))) =
      .valid (g.rules.map (·.filled)) :=
    Field.items_map (fun r hr => (hg r hr).check_layout) 0
  rw [check, hentries, Checked.andThen_valid, henabled,
    Field.optional_orNull hdescription fun _ _ => rfl, Field.optional_found hrules hread]
  rfl

end RuleGroup

theorem RuleSets.check_layout {s : RuleSets} (hdigital : s.digital.Sound) (hanalog : s.analog.Sound) :
    check (.object [("diRules", s.digital.layout false), ("aiRules", s.analog.layout false)]) =
      .valid ⟨s.digital.filled, s.analog.filled⟩ := by
  have hentries : Field.entries (.notPart "RuleSets")
      (.object [("diRules", s.digital.layout false), ("aiRules", s.analog.layout false)]) =
      .valid (entriesOf [("diRules", s.digital.layout false), ("aiRules", s.analog.layout false)]) := rfl
  rw [check, hentries, Checked.andThen_valid, Field.optional_found rfl hdigital.check_layout,
    Field.optional_found rfl hanalog.check_layout]
  rfl

/-! ## The whole configuration -/

theorem ComputedFaults.check_layout (f : ComputedFaults) : check f.layout = .valid f := rfl

/-- The fields of a document that the shape of complaints has. -/
def ComplaintMapping.fields (m : ComplaintMapping) (ds : List (String × Datum)) :
    List (String × Datum) :=
  [("titleTemplate", .text m.titleTemplate), ("descriptionTemplate", .text m.descriptionTemplate),
    ("defaultPriority", .text m.priority), ("defaultStatus", .text m.status),
    ("defaultComplaintType", .text m.complaintType), ("defaults", .object ds)]

theorem ComplaintMapping.check_layout (m : ComplaintMapping) (ds : List (String × Datum)) :
    check (m.layout (.object ds)) = .valid { m with defaults := ds } := by
  have hentries : Field.entries (.notPart "CmsMapping") (m.layout (.object ds)) =
      .valid (entriesOf (m.fields ds)) := rfl
  have hdefaults : Field.optional (entriesOf (m.fields ds)) "defaults" [] []
      (fun v => (Field.entries .notMapping v).andThen Field.textKeyed) = .valid ds :=
    Field.optional_found rfl (Field.textKeyed_entriesOf ds)
  rw [check, hentries, Checked.andThen_valid, hdefaults]
  rfl

/-- The configuration with the windows of all rate rules filled in. -/
def Config.filled (c : Config) : Config :=
  { c with ruleSets := ⟨c.ruleSets.digital.filled, c.ruleSets.analog.filled⟩ }

/-- The fields of a document that a configuration has, with given fixed fields of complaints. -/
def Config.fields (c : Config) (ds : List (String × Datum)) : List (String × Datum) :=
  [("ruleSets", .object [("diRules", c.ruleSets.digital.layout false),
      ("aiRules", c.ruleSets.analog.layout false)]),
    ("masterRules", .list (c.masterRules.map fun r => (AnyRule.master r).layout false)),
    ("winnerPolicy", .text c.winnerPolicy.name),
    ("closedStatuses", .list (c.closedStatuses.map .text)),
    ("computedFaults", c.computedFaults.layout),
    ("cmsMapping", c.complaints.layout (.object ds))]

/-- Filling in windows changes no field of the document. -/
theorem Config.layoutWith_filled (c : Config) (nulls : Bool) (defaults : Datum) :
    c.filled.layoutWith nulls defaults = c.layoutWith nulls defaults := by
  have hrule (r : OrdinaryRule) : r.filled.any.layout nulls = r.any.layout nulls := by
    cases r <;> rfl
  have hgroup (g : RuleGroup) : g.filled.layout nulls = g.layout nulls := by
    rw [RuleGroup.layout, RuleGroup.filled]
    dsimp only
    rw [List.map_map]
    simp only [Function.comp_def, hrule]
    rfl
  unfold Config.layoutWith Config.filled
  dsimp only
  rw [hgroup, hgroup]

theorem Config.Sound.check_layoutWith {c : Config} (hc : c.Sound) (ds : List (String × Datum)) :
    check (c.layoutWith false (.object ds)) =
      .ok { c.filled with complaints := { c.complaints with defaults := ds } } := by
  have hmasters : Field.list MasterRule.checkListed
      (.list (c.masterRules.map fun r => (AnyRule.master r).layout false)) =
      .valid (c.masterRules.map id) :=
    Field.items_map (fun r hr => MasterRule.checkListed_layout (hc.masters r hr)) 0
  have hpolicy : Field.word WinnerPolicy.words (.text c.winnerPolicy.name) = .valid c.winnerPolicy := by
    cases c.winnerPolicy <;> rfl
  have hclosed : (Field.list Field.text (.list (c.closedStatuses.map .text))).map (·.map Text.upper) =
      .valid c.closedStatuses := by
    obtain ⟨texts, htexts⟩ := hc.closed
    have hread : Field.list Field.text (.list (c.closedStatuses.map .text)) =
        .valid (c.closedStatuses.map id) := by
      have htext : ∀ s ∈ c.closedStatuses, Field.text (.text s) = .valid (id s) := fun _ _ => rfl
      exact Field.items_map htext 0
    rw [hread, List.map_id, Checked.map, htexts, List.map_map]
    simp [Function.comp_def, Text.upper_upper]
  have hentries : checkEntries (entriesOf (c.fields ds)) =
      .valid { c.filled with complaints := { c.complaints with defaults := ds } } := by
    rw [checkEntries, Field.optional_found rfl (RuleSets.check_layout hc.digital hc.analog),
      Field.optional_found rfl hmasters, Field.optional_found rfl hpolicy,
      Field.optional_found rfl hclosed, Field.optional_found rfl c.computedFaults.check_layout,
      Field.optional_found rfl (c.complaints.check_layout ds), List.map_id]
    rfl
  have hlayout : c.layoutWith false (.object ds) = .mapping (entriesOf (c.fields ds)) := rfl
  rw [hlayout, check, hentries]

end FaultDesk
