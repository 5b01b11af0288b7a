import FaultDesk.Proofs.Config.RoundTrip

/-!
What is left of a rules file when a configuration is not saved. A configuration that is refused leaves
the file alone. One that is taken but cannot be written leaves the file empty, and an empty file is
loaded as the standard configuration, which has no rules.
-/

namespace FaultDesk

/-! ## Whole numbers that are written -/

def Threshold.wholes : Threshold → List Int
  | .whole n => [n]
  | .real _ => []
  | .text _ => []

namespace Rule

/-- The whole numbers of a rule: its threshold, and the value its prerequisite has to have. -/
def wholes (r : Rule) : List Int :=
  r.threshold.wholes ++ (r.prerequisite.toList.flatMap (·.value.wholes))

end Rule

namespace AnyRule

def wholes : AnyRule → List Int
  | .simple r => r.wholes
  | .rate r => r.toRule.wholes
  | .master r => r.priority :: r.toRule.wholes

end AnyRule

namespace Config

/-- The whole numbers of all rules. -/
def wholes (c : Config) : List Int :=
  (c.ruleSets.digital.rules ++ c.ruleSets.analog.rules).flatMap (·.any.wholes) ++
    c.masterRules.flatMap fun r => (AnyRule.master r).wholes

end Config

namespace Yaml

/-- Whether a whole number has more digits than are written. -/
def isLong (n : Int) : Bool := decide (Nat.pow 10 Whole.digitLimit ≤ n.natAbs)

theorem anyTooMany_eq (xs : List Datum) : anyTooMany xs = xs.any hasTooManyDigits := by
  induction xs with
  | nil => rfl
  | cons x xs ih => rw [anyTooMany, ih, List.any_cons]

theorem anyTooManyIn_eq (es : List (Datum × Datum)) :
    anyTooManyIn es = es.any fun e => hasTooManyDigits e.2 := by
  induction es with
  | nil => rfl
  | cons e es ih => rw [anyTooManyIn, ih, List.any_cons]

theorem hasTooManyDigits_list (xs : List Datum) :
    hasTooManyDigits (.list xs) = xs.any hasTooManyDigits := by
  rw [hasTooManyDigits, anyTooMany_eq]

theorem hasTooManyDigits_object (fields : List (String × Datum)) :
    hasTooManyDigits (.object fields) = fields.any fun f => hasTooManyDigits f.2 := by
  rw [Datum.object_eq, hasTooManyDigits, anyTooManyIn_eq, Datum.entriesOf, List.any_map]
  rfl

theorem any_entryOrNull (name : String) (v : Option Datum) :
    ((entryOrNull false name v).any fun f => hasTooManyDigits f.2) = v.any hasTooManyDigits := by
  cases v <;> simp [entryOrNull]

theorem hasTooManyDigits_threshold (v : Threshold) :
    hasTooManyDigits v.datum = v.wholes.any isLong := by
  cases v <;> simp [Threshold.datum, Threshold.wholes, hasTooManyDigits, isLong]

@[simp] theorem hasTooManyDigits_text (s : String) : hasTooManyDigits (.text s) = false := rfl

@[simp] theorem hasTooManyDigits_truth (b : Bool) : hasTooManyDigits (.truth b) = false := rfl

@[simp] theorem hasTooManyDigits_float (x : Double) : hasTooManyDigits (.float x) = false := rfl

theorem hasTooManyDigits_duration (d : Duration) : hasTooManyDigits d.layout = false := by
  simp [Duration.layout, hasTooManyDigits_object]

/-- Fields that are texts, as most are, hold no whole numbers. -/
theorem any_map_text (v : Option String) : (v.map Datum.text).any hasTooManyDigits = false := by
  cases v <;> rfl

theorem hasTooManyDigits_prerequisite (p : Prerequisite) :
    hasTooManyDigits (p.layout false) = p.value.wholes.any isLong := by
  simp [Prerequisite.layout, hasTooManyDigits_object, any_entryOrNull, hasTooManyDigits_threshold,
    any_map_text]

theorem hasTooManyDigits_rule (r : AnyRule) :
    hasTooManyDigits (r.layout false) = r.wholes.any isLong := by
  have hown : r.wholes.any isLong = (r.base.wholes.any isLong || match r with
      | .simple _ | .rate _ => false
      | .master x => isLong x.priority) := by
    cases r <;> simp [AnyRule.wholes, AnyRule.base, Bool.or_comm]
  have hprerequisite : (r.base.prerequisite.map (·.layout false)).any hasTooManyDigits =
      (r.base.prerequisite.toList.flatMap (·.value.wholes)).any isLong := by
    cases r.base.prerequisite <;> simp [hasTooManyDigits_prerequisite]
  have hduration : (r.base.duration.map (·.layout)).any hasTooManyDigits = false := by
    cases r.base.duration <;> simp [hasTooManyDigits_duration]
  rw [hown, Rule.wholes, List.any_append]
  simp only [AnyRule.layout, hasTooManyDigits_object, List.any_append, any_entryOrNull, any_map_text,
    hprerequisite, hduration, List.any_cons, hasTooManyDigits_text, hasTooManyDigits_truth,
    hasTooManyDigits_threshold, List.any_nil, Bool.false_or, Bool.or_false]
  cases r <;> simp [isLong, hasTooManyDigits]

theorem hasTooManyDigits_group (g : RuleGroup) :
    hasTooManyDigits (g.layout false) = (g.rules.flatMap (·.any.wholes)).any isLong := by
  have hrules : (g.rules.map (·.any.layout false)).any hasTooManyDigits =
      (g.rules.flatMap (·.any.wholes)).any isLong := by
    rw [List.any_map, List.any_flatMap]
    exact congrArg g.rules.any (funext fun r => hasTooManyDigits_rule r.any)
  simp [RuleGroup.layout, hasTooManyDigits_object, any_entryOrNull, any_map_text,
    hasTooManyDigits_list, ← hrules]

theorem hasTooManyDigits_masters (rs : List MasterRule) :
    hasTooManyDigits (.list (rs.map fun r => (AnyRule.master r).layout false)) =
      (rs.flatMap fun r => (AnyRule.master r).wholes).any isLong := by
  rw [hasTooManyDigits_list, List.any_map, List.any_flatMap]
  exact congrArg rs.any (funext fun r => hasTooManyDigits_rule (.master r))

theorem hasTooManyDigits_computed (f : ComputedFaults) : hasTooManyDigits f.layout = false := by
  simp [ComputedFaults.layout, hasTooManyDigits_object]

theorem hasTooManyDigits_complaints (m : ComplaintMapping) (defaults : Datum) :
    hasTooManyDigits (m.layout defaults) = hasTooManyDigits defaults := by
  simp [ComplaintMapping.layout, hasTooManyDigits_object]

theorem hasTooManyDigits_closed (texts : List String) :
    hasTooManyDigits (.list (texts.map .text)) = false := by
  simp [hasTooManyDigits_list]

/-- The whole numbers of a written configuration are those of its rules and of the fixed fields. -/
theorem hasTooManyDigits_layoutWith (c : Config) (defaults : Datum) :
    hasTooManyDigits (c.layoutWith false defaults) =
      (c.wholes.any isLong || hasTooManyDigits defaults) := by
  simp [Config.layoutWith, Config.wholes, hasTooManyDigits_object, hasTooManyDigits_group,
    hasTooManyDigits_masters, hasTooManyDigits_computed, hasTooManyDigits_complaints,
    hasTooManyDigits_closed, Bool.or_assoc]

end Yaml

/-! ## Saving -/

namespace Config

variable {c : Config} {e : Failure} {raw : Datum} {file : Option String}

/-- What keeps a configuration from being written: fixed fields of complaints that have no plain form,
or a whole number with too many digits anywhere. -/
inductive Unwritable (c : Config) : Failure → Prop where
  | formless {e : Failure} (failed : (Datum.object c.complaints.defaults).plain = .error e) :
      Unwritable c e
  | long {d : Datum} (plain : (Datum.object c.complaints.defaults).plain = .ok d)
      (long : (∃ n ∈ c.wholes, Nat.pow 10 Whole.digitLimit ≤ n.natAbs) ∨
        Yaml.hasTooManyDigits d = true) : Unwritable c .tooManyDigits

theorem long_iff (c : Config) (d : Datum) : Yaml.hasTooManyDigits (c.layoutWith false d) = true ↔
    (∃ n ∈ c.wholes, Nat.pow 10 Whole.digitLimit ≤ n.natAbs) ∨ Yaml.hasTooManyDigits d = true := by
  rw [Yaml.hasTooManyDigits_layoutWith, Bool.or_eq_true, List.any_eq_true]
  simp only [Yaml.isLong, decide_eq_true_eq]

theorem print_error_iff : c.print = .error e ↔ c.Unwritable e := by
  cases hplain : (Datum.object c.complaints.defaults).plain with
  | error e' =>
    have hprint : c.print = .error e' := by
      rw [print, layout, hplain]
      rfl
    rw [hprint]
    constructor
    · intro h
      cases h
      exact .formless hplain
    · rintro (hfailed | ⟨hd, -⟩)
      · exact congrArg Except.error (Except.error.inj (hplain.symm.trans hfailed))
      · rw [hplain] at hd
        cases hd
  | ok d =>
    have hprint : c.print = Yaml.print (c.layoutWith false d) := by
      rw [print, layout, hplain]
      rfl
    rw [hprint, Yaml.print]
    split
    next hlong =>
      constructor
      · intro h
        cases h
        exact .long hplain ((c.long_iff d).mp hlong)
      · rintro (hfailed | -)
        · rw [hplain] at hfailed
          cases hfailed
        · rfl
    next hshort =>
      refine iff_of_false (by simp) ?_
      rintro (hfailed | ⟨hd, hlong⟩)
      · rw [hplain] at hfailed
        cases hfailed
      · obtain rfl := Except.ok.inj (hplain.symm.trans hd)
        exact hshort ((c.long_iff d).mpr hlong)

/-- A file that a failed save has emptied is taken for a configuration without rules. -/
theorem load_empty : load (some "".toUTF8.toList) = .ok standard := by
  have hread : (Yaml.read (String.ofList (unixLines "".toList))).map (·.isNone) = .ok true := by
    decide +kernel
  have htext : ofText "" = .ok standard := by
    unfold ofText
    match hdocument : Yaml.read (String.ofList (unixLines "".toList)) with
    | .error e =>
      rw [hdocument] at hread
      cases hread
    | .ok none => rfl
    | .ok (some d) =>
      rw [hdocument] at hread
      cases hread
  have hclean : Yaml.Clean "".toList := Yaml.clean_nil
  rw [load, Utf8.decodePieces_of_clean hclean]
  exact htext

/-- A configuration is refused, or taken and not written, or written. -/
theorem save_cases (raw : Datum) (file : Option String) :
    (∃ fault, check raw = .error fault ∧ save raw file = (.error (.refused fault), file)) ∨
      (∃ c e, check raw = .ok c ∧ c.Unwritable e ∧ save raw file = (.error (.failed e), some "")) ∨
      ∃ c s, check raw = .ok c ∧ c.print = .ok s ∧ save raw file = (.ok c, some s) := by
  unfold save
  cases hcheck : check raw with
  | error fault => exact Or.inl ⟨fault, rfl, rfl⟩
  | ok c =>
    dsimp only
    cases hprint : c.print with
    | error e => exact Or.inr (Or.inl ⟨c, e, rfl, print_error_iff.mp hprint, rfl⟩)
    | ok s => exact Or.inr (Or.inr ⟨c, s, rfl, hprint, rfl⟩)

theorem save_error_iff {f : FileFault} : (save raw file).1 = .error f ↔
    (∃ fault, check raw = .error fault ∧ f = .refused fault) ∨
      ∃ c e, check raw = .ok c ∧ c.Unwritable e ∧ f = .failed e := by
  simp only [← print_error_iff]
  unfold save
  cases hcheck : check raw with
  | error fault => simp [@eq_comm _ f]
  | ok c =>
    dsimp only
    cases hprint : c.print with
    | error e => simp [hprint, @eq_comm _ f]
    | ok s => simp [hprint]

/-- Saving fails exactly if the configuration is refused or cannot be written. A failed save keeps what
the file held exactly if the configuration was refused, or there was nothing in the file; else the file
is empty, and is loaded as the standard configuration. A save that goes through has replaced what the
file held by the printed configuration. -/
theorem save_keeps_iff (raw : Datum) (file : Option String) :
    (∀ f, (save raw file).1 = .error f ↔ (∃ fault, check raw = .error fault ∧ f = .refused fault) ∨
      ∃ c e, check raw = .ok c ∧ c.Unwritable e ∧ f = .failed e) ∧
      (∀ f, (save raw file).1 = .error f →
        ((save raw file).2 = file ↔ (∃ fault, check raw = .error fault) ∨ file = some "") ∧
          ((save raw file).2 ≠ file →
            (save raw file).2 = some "" ∧ load (some "".toUTF8.toList) = .ok standard)) ∧
      ∀ c, (save raw file).1 = .ok c →
        check raw = .ok c ∧ ∃ s, c.print = .ok s ∧ (save raw file).2 = some s := by
  refine ⟨fun f => save_error_iff, ?_, ?_⟩
  · intro f hf
    rcases save_cases raw file with ⟨fault, hcheck, hsave⟩ | ⟨c, e, hcheck, -, hsave⟩ |
      ⟨c, s, -, -, hsave⟩ <;> rw [hsave] at hf ⊢
    · rw [hcheck]
      exact ⟨iff_of_true rfl (Or.inl ⟨fault, rfl⟩), fun hchanged => absurd rfl hchanged⟩
    · rw [hcheck]
      refine ⟨⟨fun hsame => Or.inr hsame.symm, ?_⟩, fun _ => ⟨rfl, load_empty⟩⟩
      rintro (⟨fault, hfault⟩ | hempty)
      · cases hfault
      · exact hempty.symm
    · cases hf
  · intro c hc
    rcases save_cases raw file with ⟨fault, -, hsave⟩ | ⟨c', e, -, -, hsave⟩ |
      ⟨c', s, hcheck, hprint, hsave⟩ <;> rw [hsave] at hc ⊢ <;> cases hc
    exact ⟨hcheck, s, hprint, rfl⟩

/-- A rule with a priority of 4301 digits. -/
def farPriority : Datum :=
  .object [("masterRules", .list [.object [("tag", .text "Tag8"), ("value", .int 0),
    ("priority", .int (Nat.pow 10 Whole.digitLimit))]])]

/-- A priority with too many digits is taken and not written: the rules that the file held are gone, a
file that was not there is there, and what is loaded then has no rules. -/
theorem farPriority_empties_file :
    (save farPriority (some "masterRules:\n- tag: Tag8\n  value: 0\n")).1.isOk = false ∧
      (save farPriority (some "masterRules:\n- tag: Tag8\n  value: 0\n")).2 = some "" ∧
      (save farPriority none).1.isOk = false ∧ (save farPriority none).2 = some "" ∧
      load (some "".toUTF8.toList) = .ok standard :=
  ⟨by decide +kernel, by decide +kernel, by decide +kernel, by decide +kernel, load_empty⟩

end Config

end FaultDesk
