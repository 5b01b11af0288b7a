import FaultDesk.Config.Intake

/-!
What the check of a configuration ensures beyond the form of its fields: percentages and windows lie
within their bounds, no duration is negative, and the closed statuses are in upper case.
-/

namespace FaultDesk

/-! ## Valid results -/

namespace Checked

variable {α β : Type}

theorem map_eq_valid {f : α → β} {x : Checked α} {b : β} :
    x.map f = .valid b ↔ ∃ a, x = .valid a ∧ f a = b := by
  cases x <;> simp [map]

theorem andThen_eq_valid {x : Checked α} {f : α → Checked β} {b : β} :
    x.andThen f = .valid b ↔ ∃ a, x = .valid a ∧ f a = .valid b := by
  cases x <;> simp [andThen]

theorem under_eq_valid {p : Place} {x : Checked α} {a : α} : x.under p = .valid a ↔ x = .valid a := by
  cases x <;> simp [under]

theorem fmap_eq_valid {f : α → β} {x : Checked α} {b : β} :
    f <$> x = .valid b ↔ ∃ a, x = .valid a ∧ f a = b := map_eq_valid

theorem seq_eq_valid {f : Checked (α → β)} {x : Checked α} {b : β} :
    f <*> x = .valid b ↔ ∃ g, f = .valid g ∧ ∃ a, x = .valid a ∧ g a = b := by
  change f.apply x = .valid b ↔ _
  cases f <;> cases x <;> simp [apply]

end Checked

namespace Field

variable {α : Type} {es : List (Datum × Datum)} {name : String} {others : List String}
  {check : Datum → Checked α} {a : α}

theorem of_required (h : required es name others check = .valid a) : ∃ d, check d = .valid a := by
  unfold required at h
  split at h
  next d _ => exact ⟨d, Checked.under_eq_valid.mp h⟩
  next => cases h

/-- A field that may be left out has its default, or has been checked. -/
theorem of_optional {default : α} (h : optional es name others default check = .valid a) :
    a = default ∨ ∃ d, check d = .valid a := by
  unfold optional at h
  split at h
  next d _ => exact Or.inr ⟨d, Checked.under_eq_valid.mp h⟩
  next => exact Or.inl (by cases h; rfl)

theorem of_orNull {d : Datum} {out : Option α} (h : orNull check d = .valid out) (ha : out = some a) :
    check d = .valid a := by
  subst out
  unfold orNull at h
  split at h
  next => cases h
  next =>
    obtain ⟨a', hd, ha'⟩ := Checked.map_eq_valid.mp h
    rw [← Option.some.inj ha']
    exact hd

theorem of_items {n : Int} {ds : List Datum} {as : List α} (h : items check n ds = .valid as) :
    ∀ a ∈ as, ∃ d ∈ ds, check d = .valid a := by
  induction ds generalizing n as with
  | nil =>
    cases h
    simp
  | cons d rest ih =>
    obtain ⟨g, hg, tail, htail, rfl⟩ := Checked.seq_eq_valid.mp h
    obtain ⟨a, ha, rfl⟩ := Checked.fmap_eq_valid.mp hg
    intro b hb
    rcases List.mem_cons.mp hb with rfl | hb
    · exact ⟨d, List.mem_cons_self, Checked.under_eq_valid.mp ha⟩
    · obtain ⟨d', hd', hcheck⟩ := ih htail b hb
      exact ⟨d', List.mem_cons_of_mem d hd', hcheck⟩

theorem of_list {d : Datum} {as : List α} (h : list check d = .valid as) :
    ∀ a ∈ as, ∃ d, check d = .valid a := by
  intro a ha
  unfold list at h
  split at h
  next => exact (of_items h a ha).imp fun _ hd => hd.2
  next => exact (of_items h a ha).imp fun _ hd => hd.2
  next => exact (of_items h a ha).imp fun _ hd => hd.2
  next => cases h

end Field

/-! ## Rules -/

/-- A duration is not negative. -/
def Duration.Sound (d : Duration) : Prop := d.amount.lt Double.zero = false

theorem Duration.check_sound {d : Datum} {x : Duration} (h : check d = .valid x) : x.Sound := by
  simp only [check, Checked.andThen_eq_valid, Checked.seq_eq_valid, Checked.fmap_eq_valid] at h
  obtain ⟨es, -, _, ⟨_, ⟨amount, hamount, rfl⟩, unit, -, rfl⟩, mode, -, rfl⟩ := h
  obtain ⟨d, hd⟩ := Field.of_required hamount
  obtain ⟨a, -, ha⟩ := Checked.andThen_eq_valid.mp hd
  split at ha
  next => cases ha
  next hlt =>
    cases ha
    exact eq_false_of_ne_true hlt

/-- The duration of a rule, when it has one, is not negative. -/
def Rule.Sound (r : Rule) : Prop := ∀ d, r.duration = some d → d.Sound

theorem Rule.checkBase_sound {es : List (Datum × Datum)} {condition : Checked Condition}
    {alarmKind : String} {r : Rule} (h : checkBase es condition alarmKind = .valid r) : r.Sound := by
  simp only [checkBase, Checked.seq_eq_valid, Checked.fmap_eq_valid] at h
  obtain ⟨_, ⟨_, ⟨_, ⟨_, ⟨_, ⟨_, ⟨_, ⟨_, ⟨_, ⟨_, ⟨tag, -, rfl⟩, condition, -, rfl⟩, threshold, -, rfl⟩,
    description, -, rfl⟩, alarmKind, -, rfl⟩, enabled, -, rfl⟩, table, -, rfl⟩, prerequisite, -,
    rfl⟩, duration, hduration, rfl⟩, complaintType, -, rfl⟩, faultType, -, rfl⟩ := h
  intro d hd
  rcases Field.of_optional hduration with rfl | ⟨v, hv⟩
  · cases hd
  · exact Duration.check_sound (Field.of_orNull hv hd)

theorem Rule.check_sound {d : Datum} {r : Rule} (h : check d = .valid r) : r.Sound := by
  simp only [check, Checked.andThen_eq_valid, Checked.seq_eq_valid, Checked.fmap_eq_valid] at h
  obtain ⟨es, -, _, ⟨r, hr, rfl⟩, _, -, rfl⟩ := h
  exact checkBase_sound hr

/-- The percentage of a rate rule lies between 0 and 100, and its window has a length. -/
structure RateRule.Sound (r : RateRule) : Prop where
  base : r.toRule.Sound
  most : r.thresholdPercent.le (Double.ofNat 100) = true
  least : Double.zero.le r.thresholdPercent = true
  window : ∀ w, r.window = some w → Double.zero.lt w = true

theorem RateRule.percentField_bounds {d : Datum} {x : Double} (h : percentField d = .valid x) :
    x.le (Double.ofNat 100) = true ∧ Double.zero.le x = true := by
  obtain ⟨y, -, hy⟩ := Checked.andThen_eq_valid.mp h
  split at hy
  next => cases hy
  next hmost =>
    split at hy
    next => cases hy
    next hleast =>
      cases hy
      exact ⟨by simpa using hmost, by simpa using hleast⟩

theorem RateRule.windowField_pos {d : Datum} {x : Double} (h : windowField d = .valid x) :
    Double.zero.lt x = true := by
  obtain ⟨y, -, hy⟩ := Checked.andThen_eq_valid.mp h
  split at hy
  next hpos =>
    cases hy
    exact hpos
  next => cases hy

theorem RateRule.check_sound {d : Datum} {r : RateRule} (h : check d = .valid r) : r.Sound := by
  simp only [check, Checked.andThen_eq_valid, Checked.seq_eq_valid, Checked.fmap_eq_valid] at h
  obtain ⟨es, -, _, ⟨_, ⟨_, ⟨base, hbase, rfl⟩, _, -, rfl⟩, percent, hpercent, rfl⟩, window, hwindow,
    rfl⟩ := h
  obtain ⟨hmost, hleast⟩ : percent.le (Double.ofNat 100) = true ∧ Double.zero.le percent = true := by
    rcases Field.of_optional hpercent with hdefault | ⟨v, hv⟩
    · rw [hdefault]
      decide +kernel
    · exact percentField_bounds hv
  refine ⟨Rule.checkBase_sound hbase, hmost, hleast, ?_⟩
  intro w hw
  rcases Field.of_optional hwindow with rfl | ⟨v, hv⟩
  · cases hw
  · obtain ⟨x, hx, rfl⟩ := Checked.map_eq_valid.mp hv
    rw [← Option.some.inj hw]
    exact windowField_pos hx

/-- A checked rule of a group. -/
def OrdinaryRule.Sound : OrdinaryRule → Prop
  | simple r => r.Sound
  | rate r => r.Sound

theorem OrdinaryRule.check_sound {d : Datum} {r : OrdinaryRule} (h : check d = .valid r) :
    r.Sound := by
  unfold check at h
  split at h
  next =>
    dsimp only at h
    split at h
    next =>
      obtain ⟨q, hq, rfl⟩ := Checked.map_eq_valid.mp (Checked.under_eq_valid.mp h)
      exact Rule.check_sound hq
    next =>
      obtain ⟨q, hq, rfl⟩ := Checked.map_eq_valid.mp (Checked.under_eq_valid.mp h)
      exact RateRule.check_sound hq
    next => cases h
  next => cases h
  next => cases h

theorem MasterRule.check_sound {d : Datum} {r : MasterRule} (h : check d = .valid r) :
    r.toRule.Sound := by
  simp only [check, Checked.andThen_eq_valid, Checked.seq_eq_valid, Checked.fmap_eq_valid] at h
  obtain ⟨es, -, _, ⟨_, ⟨base, hbase, rfl⟩, _, -, rfl⟩, priority, -, rfl⟩ := h
  exact Rule.checkBase_sound hbase

theorem MasterRule.checkListed_sound {d : Datum} {r : MasterRule} (h : checkListed d = .valid r) :
    r.toRule.Sound := by
  unfold checkListed at h
  split at h
  next => exact check_sound h
  next => exact check_sound h

/-! ## The whole configuration -/

def RuleGroup.Sound (g : RuleGroup) : Prop := ∀ r ∈ g.rules, r.Sound

theorem RuleGroup.check_sound {d : Datum} {g : RuleGroup} (h : check d = .valid g) : g.Sound := by
  simp only [check, Checked.andThen_eq_valid, Checked.seq_eq_valid, Checked.fmap_eq_valid] at h
  obtain ⟨es, -, _, ⟨_, ⟨enabled, -, rfl⟩, description, -, rfl⟩, rules, hrules, rfl⟩ := h
  intro r hr
  rcases Field.of_optional hrules with rfl | ⟨v, hv⟩
  · cases hr
  · obtain ⟨x, hx⟩ := Field.of_list hv r hr
    exact OrdinaryRule.check_sound hx

theorem RuleGroup.empty_sound : RuleGroup.empty.Sound := by
  intro r hr
  cases hr

/-- What a checked configuration has. -/
structure Config.Sound (c : Config) : Prop where
  digital : c.ruleSets.digital.Sound
  analog : c.ruleSets.analog.Sound
  masters : ∀ r ∈ c.masterRules, r.toRule.Sound
  closed : ∃ texts : List String, c.closedStatuses = texts.map Text.upper

theorem RuleSets.check_sound {d : Datum} {s : RuleSets} (h : check d = .valid s) :
    s.digital.Sound ∧ s.analog.Sound := by
  have hgroup {es : List (Datum × Datum)} {name : String} {others : List String} {g : RuleGroup}
      (h : Field.optional es name others .empty RuleGroup.check = .valid g) : g.Sound := by
    rcases Field.of_optional h with rfl | ⟨v, hv⟩
    · exact RuleGroup.empty_sound
    · exact RuleGroup.check_sound hv
  simp only [check, Checked.andThen_eq_valid, Checked.seq_eq_valid, Checked.fmap_eq_valid] at h
  obtain ⟨es, -, _, ⟨digital, hdigital, rfl⟩, analog, hanalog, rfl⟩ := h
  exact ⟨hgroup hdigital, hgroup hanalog⟩

theorem ok_of_toOption {α β ε : Type} {x : Except ε α} {f : α → β} {b : β}
    (h : x.toOption.map f = some b) : ∃ a, x = .ok a ∧ f a = b := by
  cases x with
  | error e => cases h
  | ok a => exact ⟨a, rfl, Option.some.inj h⟩

theorem Config.upper_closedByDefault : closedByDefault.map Text.upper = closedByDefault := by
  decide +kernel

theorem Config.check_sound {raw : Datum} {c : Config} (h : check raw = .ok c) : c.Sound := by
  unfold check at h
  split at h
  next es =>
    split at h
    next c' hc =>
      obtain rfl := Except.ok.inj h
      simp only [checkEntries, Checked.seq_eq_valid, Checked.fmap_eq_valid] at hc
      obtain ⟨_, ⟨_, ⟨_, ⟨_, ⟨_, ⟨ruleSets, hsets, rfl⟩, masterRules, hmasters, rfl⟩, policy, -, rfl⟩,
        closed, hclosed, rfl⟩, computed, -, rfl⟩, complaints, -, rfl⟩ := hc
      obtain ⟨hdigital, hanalog⟩ : ruleSets.digital.Sound ∧ ruleSets.analog.Sound := by
        rcases Field.of_optional hsets with rfl | ⟨v, hv⟩
        · exact ⟨RuleGroup.empty_sound, RuleGroup.empty_sound⟩
        · exact RuleSets.check_sound hv
      refine ⟨hdigital, hanalog, ?_, ?_⟩
      · intro r hr
        rcases Field.of_optional hmasters with rfl | ⟨v, hv⟩
        · cases hr
        · obtain ⟨x, hx⟩ := Field.of_list hv r hr
          exact MasterRule.checkListed_sound hx
      · rcases Field.of_optional hclosed with rfl | ⟨v, hv⟩
        · exact ⟨closedByDefault, upper_closedByDefault.symm⟩
        · obtain ⟨texts, -, htexts⟩ := Checked.map_eq_valid.mp hv
          exact ⟨texts, htexts.symm⟩
    next => cases h
  next => cases h

end FaultDesk
