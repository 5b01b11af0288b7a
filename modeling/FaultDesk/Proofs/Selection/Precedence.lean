import FaultDesk.Proofs.Arbitration.Standing
import FaultDesk.Selection

/-!
Master rules come before all others in the judgement of a block. The first standing rule of the first
priority is its only winner, or else the latest of the standing rules; where there is one, no other
rule is looked at.
-/

namespace FaultDesk

/-! ## The latest item -/

section Latest

variable {α : Type} {time : α → Instant}

theorem latestBy_concat (items : List α) (y : α) :
    latestBy time (items ++ [y]) =
      match latestBy time items with
      | none => some y
      | some best => some (if time best ≤ time y then y else best) := by
  cases items with
  | nil => rfl
  | cons x rest => simp [latestBy]

/-- The latest item is not before any that stand in front of it, and after all behind it. -/
theorem latestBy_eq_some {items : List α} {x : α} (h : latestBy time items = some x) :
    ∃ before after, items = before ++ x :: after ∧ (∀ y ∈ before, time y ≤ time x) ∧
      ∀ y ∈ after, time y < time x := by
  induction items using List.reverseRecOn generalizing x with
  | nil => cases h
  | append_singleton items y ih =>
    rw [latestBy_concat] at h
    cases hbest : latestBy time items with
    | none =>
      rw [hbest] at h
      obtain rfl := Option.some.inj h
      have hitems : items = [] := by
        cases items with
        | nil => rfl
        | cons x rest => cases hbest
      subst items
      exact ⟨[], [], rfl, by simp, by simp⟩
    | some best =>
      obtain ⟨before, after, hsplit, hbefore, hafter⟩ := ih hbest
      rw [hbest] at h
      by_cases hle : time best ≤ time y
      · obtain rfl : y = x := by simpa [hle] using h
        refine ⟨items, [], rfl, ?_, by simp⟩
        intro z hz
        rw [hsplit] at hz
        rcases List.mem_append.mp hz with hmem | hmem
        · exact Int.le_trans (hbefore z hmem) hle
        · rcases List.mem_cons.mp hmem with rfl | hmem
          · exact hle
          · exact Int.le_trans (Int.le_of_lt (hafter z hmem)) hle
      · obtain rfl : best = x := by simpa [hle] using h
        refine ⟨before, after ++ [y], by simp [hsplit], hbefore, ?_⟩
        intro z hz
        rcases List.mem_append.mp hz with hmem | hmem
        · exact hafter z hmem
        · rw [List.mem_singleton.mp hmem]
          exact Int.lt_of_not_ge hle

end Latest

/-! ## The samples in order of time -/

theorem Sample.byTime_trans (a b c : Sample) (hab : decide (a.time ≤ b.time) = true)
    (hbc : decide (b.time ≤ c.time) = true) : decide (a.time ≤ c.time) = true :=
  decide_eq_true (Int.le_trans (of_decide_eq_true hab) (of_decide_eq_true hbc))

theorem Sample.byTime_total (a b : Sample) :
    (decide (a.time ≤ b.time) || decide (b.time ≤ a.time)) = true := by
  simpa using Int.le_total a.time b.time

theorem Sample.ordered_sorted (samples : List Sample) :
    (Sample.sorted samples).Pairwise fun a b => a.time ≤ b.time :=
  (List.pairwise_mergeSort byTime_trans byTime_total samples).imp fun hle => of_decide_eq_true hle

theorem Sample.sorted_sorted (samples : List Sample) :
    Sample.sorted (Sample.sorted samples) = Sample.sorted samples :=
  sorted_of_ordered (ordered_sorted samples)

theorem Sample.mem_sorted {samples : List Sample} {s : Sample} :
    s ∈ Sample.sorted samples ↔ s ∈ samples := by
  simp [Sample.sorted]

namespace MasterRule

variable {r : MasterRule} {unit : String} {samples : List Sample} {t : Timers} {latest : Sample}

theorem relevant_sorted : r.relevant (Sample.sorted samples) = r.relevant samples := by
  rw [relevant, Sample.sorted_sorted, relevant]

theorem Evaluable.sorted (he : r.Evaluable unit samples t) :
    r.Evaluable unit (Sample.sorted samples) t :=
  ⟨fun s hs => he.values s (Sample.mem_sorted.mp hs), he.key, he.span, he.zoned⟩

theorem stands_sorted_iff :
    r.Stands unit (Sample.sorted samples) t latest ↔ r.Stands unit samples t latest := by
  have hsame : r.relevant (Sample.sorted samples) = r.relevant samples := relevant_sorted
  constructor
  · rintro ⟨hon, hlast, hholds, hlasted⟩
    simp only [trailing, countsFrom, hsame] at hlast hlasted
    exact ⟨hon, hlast, hholds, hlasted⟩
  · rintro ⟨hon, hlast, hholds, hlasted⟩
    refine ⟨hon, by rw [hsame]; exact hlast, hholds, ?_⟩
    simpa only [trailing, countsFrom, hsame] using hlasted

end MasterRule

/-! ## Which rule wins -/

section Winner

variable {unit : String} {samples : List Sample} {rules : List MasterRule} {t : Timers}

theorem mem_standing {m : MasterMatch} (hr : t.Reliable)
    (he : ∀ q ∈ rules, q.enabled = true → q.Evaluable unit samples t)
    (hdated : ∀ s ∈ samples, s.Dated) :
    m ∈ standing unit samples rules t ↔
      m.rule ∈ rules ∧ m.rule.Stands unit samples t m.sample := by
  simp only [standing, List.mem_filterMap]
  constructor
  · rintro ⟨q, hq, hm⟩
    obtain ⟨rfl, hs⟩ := (MasterRule.matchAt_eq_some_iff hr (he q hq) hdated).mp hm
    exact ⟨hq, hs⟩
  · rintro ⟨hq, hs⟩
    exact ⟨m.rule, hq, (MasterRule.matchAt_eq_some_iff hr (he _ hq) hdated).mpr ⟨rfl, hs⟩⟩

/-- A match among those of all rules comes from a rule among these, and what stands before or behind
the rule is found before or behind the match. -/
theorem standing_split {before after : List MasterMatch} {m : MasterMatch} (hr : t.Reliable)
    (he : ∀ q ∈ rules, q.enabled = true → q.Evaluable unit samples t)
    (hdated : ∀ s ∈ samples, s.Dated)
    (h : standing unit samples rules t = before ++ m :: after) :
    ∃ front back, rules = front ++ m.rule :: back ∧ m.rule.Stands unit samples t m.sample ∧
      (∀ q ∈ front, ∀ l, q.Stands unit samples t l → ⟨q, l⟩ ∈ before) ∧
      ∀ q ∈ back, ∀ l, q.Stands unit samples t l → ⟨q, l⟩ ∈ after := by
  obtain ⟨lead, rest, rfl, hlead, hrest⟩ := List.filterMap_eq_append_iff.mp h
  obtain ⟨silent, r, back, rfl, hsilent, hm, hback⟩ := List.filterMap_eq_cons_iff.mp hrest
  have hmem : r ∈ lead ++ (silent ++ r :: back) := by simp
  obtain ⟨rfl, hs⟩ := (MasterRule.matchAt_eq_some_iff hr (he r hmem) hdated).mp hm
  have hfound (q : MasterRule) (hq : q ∈ lead ++ (silent ++ m.rule :: back)) (l : Sample)
      (hl : q.Stands unit samples t l) : q.matchAt unit samples t = some ⟨q, l⟩ :=
    (MasterRule.matchAt_eq_some_iff hr (he q hq) hdated).mpr ⟨rfl, hl⟩
  refine ⟨lead ++ silent, back, by simp, hs, ?_, ?_⟩
  · intro q hq l hl
    have hmatch := hfound q (by simp only [List.mem_append] at hq ⊢; tauto) l hl
    rcases List.mem_append.mp hq with hq | hq
    · rw [← hlead]
      exact List.mem_filterMap.mpr ⟨q, hq, hmatch⟩
    · rw [hsilent q hq] at hmatch
      cases hmatch
  · intro q hq l hl
    have hmatch := hfound q (by simp [hq]) l hl
    rw [← hback]
    exact List.mem_filterMap.mpr ⟨q, hq, hmatch⟩

/-- A block that a master rule wins: its one candidate, no past readings asked for, and nothing done
to the timers but by the arbitration. -/
def Flush.ofMaster (unit : String) (samples : List Sample) (rules : List MasterRule) (t : Timers)
    (r : MasterRule) (latest : Sample) : Flush :=
  ⟨.ok [.ofSample latest (.master r) none], false,
    (arbitrate unit (Sample.sorted samples) rules t).2⟩

/-- The judgement of a block by what the arbitration finds. -/
theorem flush_of_arbitrate {sel : Selector} {a : Arbitration} (hne : samples ≠ [])
    (h : (arbitrate unit (Sample.sorted samples) sel.masters t).1 = .ok a) :
    sel.flush unit samples t =
      match a.blocking.or (latestBy (·.sample.time) a.collected) with
      | some m => .ofMaster unit samples sel.masters t m.rule m.sample
      | none => sel.flushOrdinary unit (Sample.sorted samples)
          (arbitrate unit (Sample.sorted samples) sel.masters t).2 := by
  have hpair : arbitrate unit (Sample.sorted samples) sel.masters t = (.ok a, _) := Prod.ext h rfl
  have hempty : samples.isEmpty = false := by simpa using hne
  unfold Selector.flush
  simp only [hempty, Bool.false_eq_true, ↓reduceIte]
  rw [hpair]
  dsimp only
  cases hblocking : a.blocking with
  | some m => rfl
  | none =>
    cases latestBy (·.sample.time) a.collected with
    | some m => rfl
    | none => rfl

/-- If a rule of the first priority stands, the first of them in the order of the rules wins the
block. Else, if any rule stands, the one that stands at the latest sample wins, of simultaneous ones
the last in the order. Nothing else has a part in it, whatever the other rules are. -/
theorem standing_rule_wins (hne : samples ≠ []) (hr : t.Reliable) (hkeys : DistinctKeys unit rules)
    (he : ∀ q ∈ rules, q.enabled = true → q.Evaluable unit samples t)
    (hdated : ∀ s ∈ samples, s.Dated) :
    ((∃ q ∈ rules, q.isBlocking = true ∧ ∃ l, q.Stands unit samples t l) →
      ∃ front r back latest, rules = front ++ r :: back ∧ r.isBlocking = true ∧
        r.Stands unit samples t latest ∧
        (∀ q ∈ front, q.isBlocking = true → ∀ l, ¬ q.Stands unit samples t l) ∧
        ∀ sel : Selector, sel.masters = rules →
          sel.flush unit samples t = .ofMaster unit samples rules t r latest) ∧
    ((∀ q ∈ rules, q.isBlocking = true → ∀ l, ¬ q.Stands unit samples t l) →
      (∃ q ∈ rules, ∃ l, q.Stands unit samples t l) →
      ∃ front r back latest, rules = front ++ r :: back ∧ r.Stands unit samples t latest ∧
        (∀ q ∈ front, ∀ l, q.Stands unit samples t l → l.time ≤ latest.time) ∧
        (∀ q ∈ back, ∀ l, q.Stands unit samples t l → l.time < latest.time) ∧
        ∀ sel : Selector, sel.masters = rules →
          sel.flush unit samples t = .ofMaster unit samples rules t r latest) := by
  have he' : ∀ q ∈ rules, q.enabled = true → q.Evaluable unit (Sample.sorted samples) t :=
    fun q hq hon => (he q hq hon).sorted
  have hdated' : ∀ s ∈ Sample.sorted samples, s.Dated :=
    fun s hs => hdated s (Sample.mem_sorted.mp hs)
  have hok := arbitrate_ok hr hkeys he' hdated'
  have hmem (q : MasterRule) (l : Sample) (hq : q ∈ rules) (hl : q.Stands unit samples t l) :
      ⟨q, l⟩ ∈ standing unit (Sample.sorted samples) rules t :=
    (mem_standing hr he' hdated').mpr ⟨hq, MasterRule.stands_sorted_iff.mpr hl⟩
  constructor
  · -- the winner is the first match of the first priority; what stands before it would be found first
    rintro ⟨q, hq, hblocks, l, hl⟩
    obtain ⟨m, hm⟩ : ∃ m, (standing unit (Sample.sorted samples) rules t).find?
        (·.rule.isBlocking) = some m := by
      rw [← Option.isSome_iff_exists, List.find?_isSome]
      exact ⟨⟨q, l⟩, hmem q l hq hl, hblocks⟩
    obtain ⟨hmblocks, before, after, hsplit, hbefore⟩ := List.find?_eq_some_iff_append.mp hm
    obtain ⟨front, back, hrules, hs, hfront, -⟩ := standing_split hr he' hdated' hsplit
    refine ⟨front, m.rule, back, m.sample, hrules, hmblocks, MasterRule.stands_sorted_iff.mp hs,
      ?_, ?_⟩
    · intro p hp hpblocks l' hl'
      have hpmem := hfront p hp l' (MasterRule.stands_sorted_iff.mpr hl')
      exact absurd (hbefore _ hpmem) (by simp [hpblocks])
    · rintro sel rfl
      rw [flush_of_arbitrate hne hok, Arbitration.ofMatches, hm]
      rfl
  · -- no match is of the first priority, so all of them are collected and the latest is taken
    rintro hnone ⟨q, hq, l, hl⟩
    have hfind : (standing unit (Sample.sorted samples) rules t).find? (·.rule.isBlocking) =
        none := by
      rw [List.find?_eq_none]
      intro m hm hblocks
      obtain ⟨hmrule, hms⟩ := (mem_standing hr he' hdated').mp hm
      exact hnone m.rule hmrule hblocks m.sample (MasterRule.stands_sorted_iff.mp hms)
    obtain ⟨m, hm⟩ : ∃ m, latestBy (fun m : MasterMatch => m.sample.time)
        (standing unit (Sample.sorted samples) rules t) = some m := by
      cases hstanding : standing unit (Sample.sorted samples) rules t with
      | nil =>
        have hin := hmem q l hq hl
        rw [hstanding] at hin
        cases hin
      | cons x rest => exact ⟨_, rfl⟩
    obtain ⟨before, after, hsplit, hbefore, hafter⟩ := latestBy_eq_some hm
    obtain ⟨front, back, hrules, hs, hfront, hback⟩ := standing_split hr he' hdated' hsplit
    refine ⟨front, m.rule, back, m.sample, hrules, MasterRule.stands_sorted_iff.mp hs, ?_, ?_, ?_⟩
    · intro p hp l' hl'
      exact hbefore _ (hfront p hp l' (MasterRule.stands_sorted_iff.mpr hl'))
    · intro p hp l' hl'
      exact hafter _ (hback p hp l' (MasterRule.stands_sorted_iff.mpr hl'))
    · rintro sel rfl
      rw [flush_of_arbitrate hne hok, Arbitration.ofMatches, hfind]
      dsimp only
      rw [hm]
      rfl

end Winner

/-! ## A silent unit with an open door -/

/-- An open door is collected at once. -/
def doorOpen : MasterRule := ⟨.reads "Tag5" 1 0, 3⟩

/-- The silence has lasted, and the power fails before it is seen again. -/
def darkened : List Sample := [.reading "Tag16" 0 6, .reading "Tag8" 0 40]

/-- The silence has lasted, and the door is seen open at the same time. -/
def opened : List Sample := [.reading "Tag8" 0 40, .reading "Tag5" 1 40]

theorem powerLoss_stands : powerLoss.Stands "101" darkened silent (.reading "Tag16" 0 6) := by
  have hseen : powerLoss.concerns (.reading "Tag16" 0 6) = true := by decide +kernel
  have hother : powerLoss.concerns (.reading "Tag8" 0 40) = false := by decide +kernel
  refine ⟨rfl, ?_, by decide +kernel, fun hg => absurd hg (by decide +kernel)⟩
  rw [MasterRule.relevant, Sample.sorted_of_ordered (by decide)]
  simp [darkened, hseen, hother]

theorem silence_latest_opened {t : Timers} {latest : Sample}
    (h : silence.Stands "101" opened t latest) : latest = .reading "Tag8" 0 40 := by
  have hseen : silence.concerns (.reading "Tag8" 0 40) = true := by decide +kernel
  have hother : silence.concerns (.reading "Tag5" 1 40) = false := by decide +kernel
  have hlast := h.last
  rw [MasterRule.relevant, Sample.sorted_of_ordered (by decide)] at hlast
  simpa [opened, hseen, hother, eq_comm] using hlast

theorem doorOpen_stands : doorOpen.Stands "101" opened silent (.reading "Tag5" 1 40) := by
  have hseen : doorOpen.concerns (.reading "Tag5" 1 40) = true := by decide +kernel
  refine ⟨rfl, ?_, by decide +kernel, fun hg => absurd hg (by decide +kernel)⟩
  rw [MasterRule.relevant, Sample.sorted_of_ordered (by decide)]
  simp [opened, hseen]

/-- The loss of power wins over the silence that is seen later; the open door wins over a silence
that is seen at the same time. -/
theorem powerLoss_wins_and_doorOpen_wins :
    (∀ sel : Selector, sel.masters = [silence, powerLoss] →
      sel.flush "101" darkened silent =
        .ofMaster "101" darkened [silence, powerLoss] silent powerLoss (.reading "Tag16" 0 6)) ∧
    ∀ sel : Selector, sel.masters = [silence, doorOpen] →
      sel.flush "101" opened silent =
        .ofMaster "101" opened [silence, doorOpen] silent doorOpen (.reading "Tag5" 1 40) := by
  have hdark : ∀ q ∈ [silence, powerLoss], q.enabled = true →
      q.Evaluable "101" darkened silent := by
    intro q hq _
    simp only [List.mem_cons, List.not_mem_nil, or_false] at hq
    rcases hq with rfl | rfl
    · exact silence_evaluable (by decide +kernel)
    · exact @evaluable_silent _ _ _ 0 ⟨"101", "Tag16", "0"⟩ (by decide +kernel) (by decide +kernel)
        rfl (by decide +kernel)
  have hopen : ∀ q ∈ [silence, doorOpen], q.enabled = true →
      q.Evaluable "101" opened silent := by
    intro q hq _
    simp only [List.mem_cons, List.not_mem_nil, or_false] at hq
    rcases hq with rfl | rfl
    · exact silence_evaluable (by decide +kernel)
    · exact @evaluable_silent _ _ _ 0 ⟨"101", "Tag5", "1"⟩ (by decide +kernel) (by decide +kernel)
        rfl (by decide +kernel)
  constructor
  · obtain ⟨front, r, back, latest, hrules, hblocks, hs, -, hwins⟩ :=
      (standing_rule_wins (by decide) silent_reliable (distinctKeys_of_ne (by decide +kernel)) hdark
        (by decide)).1 ⟨powerLoss, by simp, by decide, _, powerLoss_stands⟩
    have hmem : r ∈ [silence, powerLoss] := by rw [hrules]; simp
    simp only [List.mem_cons, List.not_mem_nil, or_false] at hmem
    rcases hmem with rfl | rfl
    · exact absurd hblocks (by decide)
    · obtain rfl := Option.some.inj (powerLoss_stands.last.symm.trans hs.last)
      exact hwins
  · have hnone : ∀ q ∈ [silence, doorOpen], q.isBlocking = false := by decide
    obtain ⟨front, r, back, latest, hrules, hs, -, hback, hwins⟩ :=
      (standing_rule_wins (by decide) silent_reliable (distinctKeys_of_ne (by decide +kernel)) hopen
        (by decide)).2 (fun q hq hblocks => absurd hblocks (by simp [hnone q hq]))
        ⟨doorOpen, by simp, _, doorOpen_stands⟩
    cases front with
    | nil =>
      obtain ⟨rfl, rfl⟩ := List.cons.inj hrules
      have hlt := hback doorOpen List.mem_cons_self _ doorOpen_stands
      rw [silence_latest_opened hs] at hlt
      exact absurd hlt (Int.lt_irrefl _)
    | cons first front =>
      have hmem : r ∈ [doorOpen] := by
        rw [(List.cons.inj hrules).2]
        simp
      obtain rfl := List.mem_singleton.mp hmem
      obtain rfl := Option.some.inj (doorOpen_stands.last.symm.trans hs.last)
      exact hwins

end FaultDesk
