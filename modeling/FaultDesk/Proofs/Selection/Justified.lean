import FaultDesk.Proofs.Config.Sound
import FaultDesk.Proofs.Number.Line
import FaultDesk.Proofs.Selection.Grounds

/-!
Every winner of a selection is justified: there is a sample of its unit that it shows, and an active
rule of the configuration whose conditions that sample meets.
-/

namespace FaultDesk

/-! ## Percentages -/

/-- A checked percentage that a share is not below is reached by it. -/
theorem RateRule.reached_of_share {r : RateRule} (hr : r.Sound) {past : History} {now : Instant}
    {st : RateStats} (h : r.share past now = .ok (some st)) :
    0 < st.total ∧ r.thresholdPercent.le st.percent = true := by
  obtain ⟨⟨since, -, hstats⟩, hlt⟩ := of_share h
  obtain ⟨hpos, matched, -, rfl⟩ := of_stats hstats
  exact ⟨hpos, Double.le_of_lt_eq_false (Double.isNan_ofRatio ..) (Double.isNan_of_le hr.least) hlt⟩

/-! ## Active rules -/

namespace Config

variable {c : Config}

/-- A rule is active if it is enabled, and is a master rule or stands in an enabled group. -/
def Active (c : Config) (rule : AnyRule) : Prop :=
  rule.base.enabled = true ∧
    ((∃ r ∈ c.masterRules, rule = .master r) ∨
      ∃ g, (g = c.ruleSets.digital ∨ g = c.ruleSets.analog) ∧ g.enabled = true ∧
        ∃ r ∈ g.rules, rule = r.any)

theorem active_of_mem_activeMasters {r : MasterRule} (h : r ∈ c.activeMasters) :
    c.Active (.master r) := by
  obtain ⟨hmem, hon⟩ := List.mem_filter.mp h
  exact ⟨hon, Or.inl ⟨r, hmem, rfl⟩⟩

/-- An active rule of the groups stands in one of them that is enabled. -/
theorem mem_activeRules {r : OrdinaryRule} (h : r ∈ c.ruleSets.activeRules) :
    r.base.enabled = true ∧
      ∃ g, (g = c.ruleSets.digital ∨ g = c.ruleSets.analog) ∧ g.enabled = true ∧ r ∈ g.rules := by
  have hgroup {g : RuleGroup} (hg : r ∈ g.activeRules) :
      r.base.enabled = true ∧ g.enabled = true ∧ r ∈ g.rules := by
    unfold RuleGroup.activeRules at hg
    split at hg
    next hon => exact ⟨(List.mem_filter.mp hg).2, hon, (List.mem_filter.mp hg).1⟩
    next => cases hg
  rcases List.mem_append.mp h with h | h
  · exact ⟨(hgroup h).1, _, Or.inl rfl, (hgroup h).2⟩
  · exact ⟨(hgroup h).1, _, Or.inr rfl, (hgroup h).2⟩

theorem active_of_mem_activeRules {r : OrdinaryRule} (h : r ∈ c.ruleSets.activeRules) :
    c.Active r.any := by
  obtain ⟨hon, g, hg, hgon, hmem⟩ := mem_activeRules h
  exact ⟨by rw [OrdinaryRule.base_any]; exact hon, Or.inr ⟨g, hg, hgon, r, hmem, rfl⟩⟩

theorem mem_simpleRules {r : Rule} :
    r ∈ c.ruleSets.simpleRules ↔ .simple r ∈ c.ruleSets.activeRules := by
  simp only [RuleSets.simpleRules, List.mem_filterMap]
  constructor
  · rintro ⟨q, hq, hr⟩
    cases q <;> cases hr
    exact hq
  · exact fun h => ⟨_, h, rfl⟩

theorem mem_rateRules {r : RateRule} : r ∈ c.ruleSets.rateRules ↔ .rate r ∈ c.ruleSets.activeRules := by
  simp only [RuleSets.rateRules, List.mem_filterMap]
  constructor
  · rintro ⟨q, hq, hr⟩
    cases q <;> cases hr
    exact hq
  · exact fun h => ⟨_, h, rfl⟩

/-- The active rate rules of a checked configuration have been checked. -/
theorem Sound.rate (h : c.Sound) {r : RateRule} (hr : r ∈ c.ruleSets.rateRules) : r.Sound := by
  obtain ⟨-, g, hg, -, hmem⟩ := mem_activeRules (mem_rateRules.mp hr)
  rcases hg with rfl | rfl
  · exact h.digital _ hmem
  · exact h.analog _ hmem

end Config

/-! ## Justified winners -/

/-- What a rule must find at a sample of a block before a fault is raised: its condition is true, and for
a master rule at the last sample that it looks at; a rate rule reaches its percentage among some
readings. -/
def AnyRule.Finds (samples : List Sample) (s : Sample) (stats : Option RateStats) : AnyRule → Prop
  | simple r => s.tag = r.tag ∧ r.holdsFor s.value = .ok true
  | master r =>
    Datum.normalOfText s.tag = Datum.normalOfText r.tag ∧ r.holdsAt s.value = .ok true ∧
      (∃ before after, Sample.sorted samples = before ++ s :: after ∧
        ∀ x ∈ after, r.concerns x = false) ∧
      ∀ x ∈ samples, s.time < x.time → r.concerns x = false
  | rate r =>
    s.tag = r.tag ∧
      (∃ st, stats = some st ∧ 0 < st.total ∧ r.thresholdPercent.le st.percent = true) ∧
      (r.gated = true → r.holdsFor s.value = .ok true)

/-- A candidate shows a sample of a block, and an active rule has found what it must there. -/
structure Candidate.Justified (c : Config) (samples : List Sample) (k : Candidate) (s : Sample) :
    Prop where
  mem : s ∈ samples
  unit : k.unit = s.unit
  value : k.value = s.value
  time : k.time = s.time
  kind : k.kind = s.kind
  active : c.Active k.rule
  tag : k.tag = k.rule.base.tag
  fits : s.kind.fits k.rule.base.table = true
  finds : k.rule.Finds samples s k.stats

/-- The samples that stand behind the last one that a master rule looks at. -/
theorem MasterRule.split_of_last {r : MasterRule} {samples : List Sample} {s : Sample}
    (h : (r.relevant samples).getLast? = some s) :
    (∃ before after, Sample.sorted samples = before ++ s :: after ∧
        ∀ x ∈ after, r.concerns x = false) ∧
      ∀ x ∈ samples, s.time < x.time → r.concerns x = false := by
  obtain ⟨front, hfront⟩ := List.getLast?_eq_some_iff.mp h
  obtain ⟨first, second, hsorted, -, hsecond⟩ := List.filter_eq_append_iff.mp hfront
  obtain ⟨middle, after, rfl, -, -, hafter⟩ := List.filter_eq_cons_iff.mp hsecond
  have hnone : ∀ x ∈ after, r.concerns x = false := by
    intro x hx
    simpa using List.filter_eq_nil_iff.mp hafter x hx
  have hsplit : Sample.sorted samples = (first ++ middle) ++ s :: after := by
    rw [hsorted, List.append_assoc]
  refine ⟨⟨first ++ middle, after, hsplit, hnone⟩, ?_⟩
  intro x hx hlt
  have hordered := Sample.ordered_sorted samples
  rw [hsplit] at hordered
  obtain ⟨-, -, hbefore⟩ := List.pairwise_append.mp hordered
  have hx := Sample.mem_sorted.mpr hx
  rw [hsplit] at hx
  rcases List.mem_append.mp hx with hx | hx
  · exact absurd (hbefore x hx s List.mem_cons_self) (Int.not_le.mpr hlt)
  · rcases List.mem_cons.mp hx with rfl | hx
    · exact absurd hlt (Int.lt_irrefl _)
    · exact hnone x hx

section Justification

variable {c : Config} {past : Option (String → List Sample)} {now : Instant} {policy : WinnerPolicy}

/-- The selector of a configuration under any policy. -/
def Config.selector (c : Config) (past : Option (String → List Sample)) (now : Instant)
    (policy : WinnerPolicy) : Selector :=
  { Selector.ofConfig c past now with policy := policy }

/-- What an ordinary rule of a checked configuration hits is justified by the sample it was hit at. -/
theorem Selector.Hit.justified (hc : c.Sound) {unit : String} {samples : List Sample} {k : Candidate}
    (h : (c.selector past now policy).Hit unit (withRelated [] (Sample.sorted samples)) k) :
    ∃ s, k.Justified c samples s := by
  cases h with
  | @simple s related r seen mem watches prerequisite holds =>
    have hs : s ∈ samples := Sample.mem_sorted.mp (mem_of_withRelated seen)
    simp only [Rule.watches, Bool.and_eq_true, beq_iff_eq] at watches
    obtain ⟨⟨-, htag⟩, hfits⟩ := watches
    exact ⟨s, hs, rfl, rfl, rfl, rfl, Config.active_of_mem_activeRules (Config.mem_simpleRules.mp mem),
      rfl, hfits, htag.symm, holds⟩
  | @rate s related r past' st seen mem watches prerequisite holds recalled share =>
    have hs : s ∈ samples := Sample.mem_sorted.mp (mem_of_withRelated seen)
    simp only [Rule.watches, Bool.and_eq_true, beq_iff_eq] at watches
    obtain ⟨⟨-, htag⟩, hfits⟩ := watches
    obtain ⟨hpos, hreached⟩ := RateRule.reached_of_share (hc.rate mem) share
    exact ⟨s, hs, rfl, rfl, rfl, rfl, Config.active_of_mem_activeRules (Config.mem_rateRules.mp mem),
      rfl, hfits, htag.symm, ⟨st, rfl, hpos, hreached⟩, holds⟩

theorem MasterMatch.Grounded.justified {samples : List Sample} {m : MasterMatch}
    (h : m.Grounded c.activeMasters samples) : m.candidate.Justified c samples m.sample := by
  obtain ⟨hmem, hconcerns⟩ := MasterRule.mem_relevant.mp (List.mem_of_getLast? h.last)
  simp only [MasterRule.concerns, Bool.and_eq_true, beq_iff_eq] at hconcerns
  obtain ⟨htag, hfits⟩ := hconcerns
  obtain ⟨hsplit, hlater⟩ := MasterRule.split_of_last h.last
  exact ⟨hmem, rfl, rfl, rfl, rfl, Config.active_of_mem_activeMasters h.mem, rfl, hfits, htag, h.holds,
    hsplit, hlater⟩

/-- Whatever the timers do, each winner of a selection is justified by a sample of a block of its
unit. -/
theorem winner_justified {raw : Datum} {wanted : Option Nat} {stream extra : List Sample} {t : Timers}
    {k : Candidate} (hc : Config.check raw = .ok c)
    (h : .winner k ∈ ((c.selector past now policy).select wanted stream extra t).1) :
    ∃ b ∈ blocks stream extra, b.unit = k.unit ∧ ∃ s, k.Justified c b.samples s := by
  obtain ⟨b, hb, hgrounds⟩ := Selector.grounds_of_select h
  obtain ⟨s, hs⟩ : ∃ s, k.Justified c b.samples s := by
    cases hgrounds with
    | @master m grounded => exact ⟨m.sample, grounded.justified⟩
    | ordinary hit => exact hit.justified (Config.check_sound hc)
  have hunit := unit_of_mem_samples stream extra hb hs.mem
  exact ⟨b, hb, hunit.symm.trans hs.unit.symm, s, hs⟩

/-- Most readings of the last two days above ten are a fault. -/
def hotRules : Datum :=
  .mapping [(.text "ruleSets", .mapping [(.text "aiRules", .mapping [(.text "rules", .list
    [.mapping [(.text "kind", .text "rate"), (.text "tag", .text "Tag3"),
      (.text "condition", .text "gt"), (.text "value", .int 10)]])])])]

def hotReadings : List Sample := [.reading "Tag3" 11 0, .reading "Tag3" 12 5]

/-- The length of the window of the rule. -/
def twoDays : Instant := 48 * 3600 * 1000000

/-- Both past readings are above ten. -/
theorem hot_winner_justified :
    ∃ (c : Config) (k : Candidate) (b : Block) (s : Sample), Config.check hotRules = .ok c ∧
      .winner k ∈ ((c.selector (some fun _ => hotReadings) twoDays .single).select none
        [.reading "Tag3" 12 5] [] (.empty true)).1 ∧
      b.unit = "101" ∧ k.Justified c b.samples s ∧
      k.stats.map (fun st => (st.matched, st.total)) = some (2, 2) := by
  have hwins : (Config.check hotRules).toOption.map (fun c =>
      ((((c.selector (some fun _ => hotReadings) twoDays .single).select none
        [.reading "Tag3" 12 5] [] (.empty true)).1.filterMap SelectionEvent.winner?).map
          fun k => (k.unit, k.stats.map fun st => (st.matched, st.total)))) =
        some [("101", some (2, 2))] := by decide +kernel
  obtain ⟨c, hc, hwon⟩ := ok_of_toOption hwins
  obtain ⟨k, hk, hkey⟩ := SelectionEvent.exists_winner hwon
  obtain ⟨hunit, hstats⟩ := Prod.mk.inj hkey
  obtain ⟨b, -, hb, s, hs⟩ := winner_justified hc hk
  exact ⟨c, k, b, s, hc, hk, hb.trans hunit, hs, hstats⟩

end Justification

end FaultDesk
