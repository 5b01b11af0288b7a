import FaultDesk.Proofs.Selection.Justified

/-!
Samples of no interest. What no active rule looks at makes no difference to the judgement of a block,
neither to its winners nor to the timers. The tags of interest name all that ordinary rules and
prerequisites look at; master rules compare tags by their text in keys, and can look at more.
-/

namespace FaultDesk

/-! ## Some samples of a block -/

namespace Sample

variable {keep : Sample → Bool}

theorem sorted_cons (s : Sample) (rest : List Sample) :
    ∃ before after, sorted (s :: rest) = before ++ s :: after ∧ sorted rest = before ++ after ∧
      (∀ x ∈ before, x.time < s.time) ∧ ∀ x ∈ after, s.time ≤ x.time := by
  obtain ⟨before, after, hall, hrest, hbefore⟩ :=
    List.mergeSort_cons byTime_trans byTime_total s rest
  refine ⟨before, after, hall, hrest, ?_, ?_⟩
  · intro x hx
    simpa using hbefore x hx
  · have hordered := ordered_sorted (s :: rest)
    rw [sorted, hall] at hordered
    exact (List.pairwise_cons.mp (List.pairwise_append.mp hordered).2.1).1

/-- A list is cut in one way only where times stop being below an instant. -/
theorem eq_of_cut {i : Instant} {before after before' after' : List Sample}
    (h : before ++ after = before' ++ after') (hbefore : ∀ x ∈ before, x.time < i)
    (hafter : ∀ x ∈ after, i ≤ x.time) (hbefore' : ∀ x ∈ before', x.time < i)
    (hafter' : ∀ x ∈ after', i ≤ x.time) : before = before' ∧ after = after' := by
  have hcut {front back : List Sample} (hfront : ∀ x ∈ front, x.time < i)
      (hback : ∀ x ∈ back, i ≤ x.time) :
      (front ++ back).takeWhile (fun x => decide (x.time < i)) = front := by
    rw [List.takeWhile_append_of_pos (by simpa using hfront)]
    cases back with
    | nil => simp
    | cons x more => simp [Int.not_lt.mpr (hback x List.mem_cons_self)]
  have hsame : before = before' := by
    rw [← hcut hbefore hafter, h, hcut hbefore' hafter']
  subst before'
  exact ⟨rfl, List.append_cancel_left h⟩

/-- Samples stand in the same order of time with and without others. -/
theorem sorted_filter (samples : List Sample) :
    sorted (samples.filter keep) = (sorted samples).filter keep := by
  induction samples with
  | nil => simp [sorted]
  | cons s rest ih =>
    obtain ⟨before, after, hall, hrest, hbefore, hafter⟩ := sorted_cons s rest
    rw [hrest, List.filter_append] at ih
    cases hs : keep s with
    | false => simp [hs, hall, ih]
    | true =>
      obtain ⟨before', after', hall', hrest', hbefore', hafter'⟩ := sorted_cons s (rest.filter keep)
      rw [hrest'] at ih
      obtain ⟨rfl, rfl⟩ := eq_of_cut ih hbefore' hafter'
        (fun x hx => hbefore x (List.mem_filter.mp hx).1)
        (fun x hx => hafter x (List.mem_filter.mp hx).1)
      simp [hs, hall, hall']

end Sample

theorem withRelated_filter (keep : Sample → Bool) (seen samples : List Sample) :
    withRelated (seen.filter keep) (samples.filter keep) =
      ((withRelated seen samples).filter (keep ·.1)).map fun p => (p.1, p.2.filter keep) := by
  induction samples generalizing seen with
  | nil => rfl
  | cons s rest ih =>
    have hswap (q : Sample → Bool) (l : List Sample) :
        (l.filter keep).filter q = (l.filter q).filter keep := by
      rw [List.filter_filter, List.filter_filter]
      exact List.filter_congr fun x _ => Bool.and_comm _ _
    have hseen := ih (s :: seen)
    cases hs : keep s with
    | false => simpa [hs, withRelated] using hseen
    | true =>
      simp only [List.filter_cons, hs, ↓reduceIte] at hseen
      simp [hs, withRelated, hseen, hswap, List.filter_reverse]

/-! ## Ordinary rules -/

/-- Whether samples are kept that a rule or its prerequisite can look at. -/
def Rule.Keeps (keep : Sample → Bool) (r : Rule) : Prop :=
  ∀ s, s.tag ∈ Config.tagsOf r → keep s = true

section Rules

variable {keep : Sample → Bool} {s : Sample} {related : List Sample} {t : Timers}

theorem Prerequisite.reading_filter {p : Prerequisite} (h : ∀ q : Sample, q.tag = p.tag → keep q = true) :
    p.reading? s (related.filter keep) = p.reading? s related := by
  have hfind : (related.filter keep).find? (fun q => q.tag == p.tag && q.kind.fits p.table) =
      related.find? (fun q => q.tag == p.tag && q.kind.fits p.table) := by
    rw [List.find?_filter]
    congr 1
    funext q
    by_cases htag : q.tag = p.tag
    · simp [h q htag, htag]
    · simp [htag]
  unfold reading?
  rw [hfind]

theorem Rule.prerequisiteHolds_filter {r : Rule} (h : r.Keeps keep) :
    r.prerequisiteHolds s (related.filter keep) = r.prerequisiteHolds s related := by
  unfold prerequisiteHolds
  split
  next => rfl
  next p hp =>
    unfold Prerequisite.satisfied
    rw [Prerequisite.reading_filter]
    intro q hq
    exact h q (by simp [Config.tagsOf, hp, hq])

theorem Rule.verdict_filter {r : Rule} (h : r.Keeps keep) :
    r.verdict s (related.filter keep) t = r.verdict s related t := by
  unfold verdict
  rw [prerequisiteHolds_filter h]

theorem RateRule.verdict_filter {r : RateRule} (h : r.toRule.Keeps keep) {past : History}
    {now : Instant} :
    r.verdict s (related.filter keep) past now t = r.verdict s related past now t := by
  unfold verdict
  rw [Rule.prerequisiteHolds_filter h]

theorem matchFrom_filter {rules : List Rule} (h : ∀ r ∈ rules, r.Keeps keep) (n : Nat) :
    matchFrom s (related.filter keep) n rules t = matchFrom s related n rules t := by
  induction rules generalizing n t with
  | nil => rfl
  | cons r rest ih =>
    have hrest {u : Timers} := @ih u fun q hq => h q (List.mem_cons_of_mem r hq)
    simp only [matchFrom, Rule.verdict_filter (h r List.mem_cons_self), hrest]

theorem rateFrom_filter {rules : List RateRule} (h : ∀ r ∈ rules, r.toRule.Keeps keep)
    {past : History} {now : Instant} :
    rateFrom s (related.filter keep) past now rules t = rateFrom s related past now rules t := by
  induction rules generalizing t with
  | nil => rfl
  | cons r rest ih =>
    have hrest {u : Timers} := @ih u fun q hq => h q (List.mem_cons_of_mem r hq)
    simp only [rateFrom, RateRule.verdict_filter (h r List.mem_cons_self), hrest]

end Rules

/-- Whether samples are kept that some ordinary rule can look at. -/
structure Selector.Keeps (keep : Sample → Bool) (sel : Selector) : Prop where
  simple : ∀ r ∈ sel.simple, r.Keeps keep
  rate : ∀ r ∈ sel.rate, r.toRule.Keeps keep

namespace Selector

variable {sel : Selector} {keep : Sample → Bool} {s : Sample} {related samples : List Sample}
  {st : Search} {unit : String} {t : Timers}

theorem trySimple_filter (h : sel.Keeps keep) :
    sel.trySimple s (related.filter keep) st = sel.trySimple s related st := by
  unfold trySimple firstMatch
  rw [matchFrom_filter h.simple]

theorem tryRate_filter (h : sel.Keeps keep) (past : History) :
    sel.tryRate s (related.filter keep) past st = sel.tryRate s related past st := by
  unfold tryRate firstRateIn
  rw [rateFrom_filter fun r hr => h.rate r (List.mem_filter.mp hr).1]

/-- A sample that is not kept passes through the ordinary rules without a trace. -/
theorem trySimple_of_dropped (h : sel.Keeps keep) (hs : keep s = false) :
    sel.trySimple s related st = st := by
  have hnone : ∀ r ∈ sel.simple, r.watches s = false := by
    intro r hr
    refine eq_false_of_ne_true fun hw => ?_
    simp only [Rule.watches, Bool.and_eq_true, beq_iff_eq] at hw
    have hkept := h.simple r hr s (by simp [Config.tagsOf, hw.1.2])
    rw [hs] at hkept
    cases hkept
  unfold trySimple firstMatch
  rw [matchFrom_unwatched hnone]

theorem asksHistory_of_dropped (h : sel.Keeps keep) (hs : keep s = false) :
    sel.asksHistory s = false := by
  refine eq_false_of_ne_true fun hasks => ?_
  obtain ⟨r, hr, htag⟩ := List.any_eq_true.mp hasks
  have hkept := h.rate r hr s (by simp [Config.tagsOf, eq_of_beq htag])
  rw [hs] at hkept
  cases hkept

theorem search_filter (h : sel.Keeps keep) (pairs : List (Sample × List Sample)) (st : Search) :
    sel.search unit ((pairs.filter (keep ·.1)).map fun p => (p.1, p.2.filter keep)) st =
      sel.search unit pairs st := by
  induction pairs generalizing st with
  | nil => rfl
  | cons p rest ih =>
    obtain ⟨s, related⟩ := p
    cases hs : keep s with
    | false =>
      simp only [List.filter_cons, hs, Bool.false_eq_true, ↓reduceIte, search,
        trySimple_of_dropped h hs, asksHistory_of_dropped h hs]
      exact ih st
    | true =>
      simp only [List.filter_cons, hs, ↓reduceIte, List.map_cons, search, trySimple_filter h,
        tryRate_filter h, ih]

theorem flushOrdinary_filter (h : sel.Keeps keep) :
    sel.flushOrdinary unit (samples.filter keep) t = sel.flushOrdinary unit samples t := by
  have hrelated := withRelated_filter keep [] samples
  rw [List.filter_nil] at hrelated
  unfold flushOrdinary
  rw [hrelated, search_filter h]

end Selector

/-! ## Master rules -/

/-- A run is followed through the samples that the rule looks at. -/
theorem ActiveRun.follow_filter {keep : Sample → Bool} {r : MasterRule} {samples : List Sample}
    (h : ∀ s ∈ samples, keep s = false → r.concerns s = false) (run : Option (Sample × Sample))
    (interrupted : Bool) :
    follow r run interrupted (samples.filter keep) = follow r run interrupted samples := by
  induction samples generalizing run interrupted with
  | nil => rfl
  | cons s rest ih =>
    have hrest := ih fun x hx => h x (List.mem_cons_of_mem s hx)
    cases hs : keep s with
    | false =>
      have hnone := h s List.mem_cons_self hs
      simp only [List.filter_cons, hs, Bool.false_eq_true, ↓reduceIte, follow, hnone, hrest]
    | true => simp only [List.filter_cons, hs, ↓reduceIte, follow, hrest]

theorem MasterRule.verdict_filter {keep : Sample → Bool} {r : MasterRule} {samples : List Sample}
    (h : ∀ s ∈ samples, keep s = false → r.concerns s = false) (unit : String) (t : Timers) :
    r.verdict unit (samples.filter keep) t = r.verdict unit samples t := by
  have hfind : ActiveRun.find r (samples.filter keep) = ActiveRun.find r samples := by
    unfold ActiveRun.find
    rw [Sample.sorted_filter]
    exact ActiveRun.follow_filter (fun s hs => h s (Sample.mem_sorted.mp hs)) none false
  unfold verdict
  rw [hfind]

theorem arbitrateFrom_filter {keep : Sample → Bool} {rules : List MasterRule} {samples : List Sample}
    (h : ∀ r ∈ rules, ∀ s ∈ samples, keep s = false → r.concerns s = false) (unit : String)
    (collected : List MasterMatch) (t : Timers) :
    arbitrateFrom unit (samples.filter keep) collected rules t =
      arbitrateFrom unit samples collected rules t := by
  induction rules generalizing collected t with
  | nil => rfl
  | cons r rest ih =>
    have hrest := ih fun q hq => h q (List.mem_cons_of_mem r hq)
    simp only [arbitrateFrom, MasterRule.verdict_filter (h r List.mem_cons_self), hrest]

/-! ## Blocks -/

/-- Samples that no rule looks at make no difference to a block, unless nothing is left of it while
there are master rules. -/
theorem Selector.flush_filter {sel : Selector} {keep : Sample → Bool} {samples : List Sample}
    (hkeeps : sel.Keeps keep)
    (hmasters : ∀ r ∈ sel.masters, ∀ s ∈ samples, keep s = false → r.concerns s = false)
    (hleft : samples.filter keep ≠ [] ∨ sel.masters = []) (unit : String) (t : Timers) :
    sel.flush unit (samples.filter keep) t = sel.flush unit samples t := by
  have harbitrate : arbitrate unit (Sample.sorted (samples.filter keep)) sel.masters t =
      arbitrate unit (Sample.sorted samples) sel.masters t := by
    rw [Sample.sorted_filter]
    exact arbitrateFrom_filter (fun r hr s hs => hmasters r hr s (Sample.mem_sorted.mp hs)) unit [] t
  have hordinary (u : Timers) : sel.flushOrdinary unit (Sample.sorted (samples.filter keep)) u =
      sel.flushOrdinary unit (Sample.sorted samples) u := by
    rw [Sample.sorted_filter]
    exact flushOrdinary_filter hkeeps
  by_cases hempty : samples.filter keep = []
  -- An empty block is not looked at; without master rules nothing comes of the whole one either.
  · have hnone : sel.masters = [] := hleft.resolve_left fun h => h hempty
    rw [hempty] at hordinary ⊢
    cases samples with
    | nil => rfl
    | cons s rest =>
      have hwinners : sel.policy.winners [] = [] := by
        cases sel.policy <;> simp [WinnerPolicy.winners, latestBy, lastPerTag]
      have hfound : sel.flush unit (s :: rest) t =
          sel.flushOrdinary unit (Sample.sorted (s :: rest)) t := by
        simp [flush, arbitrate, hnone, arbitrateFrom, latestBy]
      rw [hfound, ← hordinary]
      simp [flush, flushOrdinary, Sample.sorted, withRelated, search, hwinners]
  · have hne : samples ≠ [] := by
      rintro rfl
      exact hempty rfl
    have hall : (samples.filter keep).isEmpty = samples.isEmpty := by
      rw [List.isEmpty_eq_false_iff.mpr hempty, List.isEmpty_eq_false_iff.mpr hne]
    simp only [flush, hall, harbitrate, hordinary]

namespace Config

variable {c : Config} {past : Option (String → List Sample)} {now : Instant} {policy : WinnerPolicy}

/-- Whether a sample has a tag of interest. -/
def ofInterest (c : Config) (s : Sample) : Bool := c.tagsOfInterest.contains s.tag

theorem mem_tagsOfInterest {tag : String} :
    tag ∈ c.tagsOfInterest ↔
      (∃ r ∈ c.ruleSets.activeRules, tag ∈ tagsOf r.base) ∨
        ∃ r ∈ c.activeMasters, tag ∈ tagsOf r.toRule := by
  simp only [tagsOfInterest, (ascending_spec _).2, List.mem_flatMap, List.mem_append, List.mem_map]
  constructor
  · rintro ⟨r, ⟨q, hq, rfl⟩ | ⟨q, hq, rfl⟩, htag⟩
    · exact Or.inl ⟨q, hq, htag⟩
    · exact Or.inr ⟨q, hq, htag⟩
  · rintro (⟨q, hq, htag⟩ | ⟨q, hq, htag⟩)
    · exact ⟨q.base, Or.inl ⟨q, hq, rfl⟩, htag⟩
    · exact ⟨q.toRule, Or.inr ⟨q, hq, rfl⟩, htag⟩

/-- The tags of interest are complete for the ordinary rules and their prerequisites. -/
theorem keeps_ofInterest : (c.selector past now policy).Keeps c.ofInterest := by
  constructor
  · intro r hr s hs
    refine List.contains_iff_mem.mpr (mem_tagsOfInterest.mpr (Or.inl ⟨.simple r, ?_, hs⟩))
    exact mem_simpleRules.mp hr
  · intro r hr s hs
    refine List.contains_iff_mem.mpr (mem_tagsOfInterest.mpr (Or.inl ⟨.rate r, ?_, hs⟩))
    exact mem_rateRules.mp hr

/-- Samples of no interest make no difference to a block, if none of them is one that an active master
rule looks at and not all samples are such. -/
theorem flush_of_interest {unit : String} {samples : List Sample} {t : Timers}
    (hmasters : ∀ r ∈ c.activeMasters, ∀ s ∈ samples, r.concerns s = true → s.tag ∈ c.tagsOfInterest)
    (hleft : (∃ s ∈ samples, s.tag ∈ c.tagsOfInterest) ∨ c.activeMasters = []) :
    (c.selector past now policy).flush unit (samples.filter c.ofInterest) t =
      (c.selector past now policy).flush unit samples t := by
  refine Selector.flush_filter keeps_ofInterest ?_ ?_ unit t
  · intro r hr s hs hdropped
    refine eq_false_of_ne_true fun hconcerns => ?_
    have hkept : c.ofInterest s = true := List.contains_iff_mem.mpr (hmasters r hr s hs hconcerns)
    rw [hdropped] at hkept
    cases hkept
  · refine hleft.imp_left ?_
    rintro ⟨s, hs, htag⟩
    exact List.ne_nil_of_mem (List.mem_filter.mpr ⟨hs, List.contains_iff_mem.mpr htag⟩)

/-- A loss of power is the only fault. -/
def powerOnly : Config := { standard with masterRules := [powerLoss] }

/-- The door makes no difference to the loss of power. -/
theorem powerOnly_flush :
    let samples : List Sample := [.reading "Tag16" 0 0, .reading "Tag5" 1 5]
    samples.filter powerOnly.ofInterest = [.reading "Tag16" 0 0] ∧
      (powerOnly.selector none 0 .single).flush "101" [.reading "Tag16" 0 0] (.empty true) =
        (powerOnly.selector none 0 .single).flush "101" samples (.empty true) := by
  intro samples
  have hfilter : samples.filter powerOnly.ofInterest = [.reading "Tag16" 0 0] := by
    have hdoor : powerOnly.ofInterest (.reading "Tag5" 1 5) = false := by decide +kernel
    have hpower : powerOnly.ofInterest (.reading "Tag16" 0 0) = true := by decide +kernel
    simp [samples, hdoor, hpower]
  refine ⟨hfilter, ?_⟩
  rw [← hfilter]
  exact flush_of_interest (by decide +kernel) (Or.inl ⟨_, List.mem_cons_self, by decide +kernel⟩)

/-- The tag of this rule ends in a blank, which is left out in keys. -/
def looseRule : MasterRule := ⟨.reads "Tag8 " 0 0, 1⟩

/-- A silent unit is a fault, and so is a lit lamp. -/
def looseConfig : Config :=
  { standard with
    ruleSets := ⟨⟨true, none, [.simple (.reads "Tag1" 1 0)]⟩, .empty⟩, masterRules := [looseRule] }

/-- The unit falls silent and lights its lamp. -/
def silentLit : List Sample := [.reading "Tag8" 0 0, .reading "Tag1" 1 5]

theorem mem_tagsOfInterest_loose {tag : String} :
    tag ∈ looseConfig.tagsOfInterest ↔ tag = "Tag1" ∨ tag = "Tag8 " := by
  have hordinary : looseConfig.ruleSets.activeRules = [.simple (.reads "Tag1" 1 0)] := rfl
  have hmasters : looseConfig.activeMasters = [looseRule] := rfl
  rw [mem_tagsOfInterest, hordinary, hmasters]
  simp [tagsOf, OrdinaryRule.base, Rule.reads, looseRule]

theorem silentLit_ofInterest : silentLit.filter looseConfig.ofInterest = [.reading "Tag1" 1 5] := by
  have hsilent : looseConfig.ofInterest (.reading "Tag8" 0 0) = false := by
    refine eq_false_of_ne_true fun h => ?_
    have htag := mem_tagsOfInterest_loose.mp (List.contains_iff_mem.mp h)
    simp [Sample.reading] at htag
  have hlit : looseConfig.ofInterest (.reading "Tag1" 1 5) = true :=
    List.contains_iff_mem.mpr (mem_tagsOfInterest_loose.mpr (Or.inl rfl))
  simp [silentLit, hsilent, hlit]

/-- The master rule wins the whole block, though its sample is of no interest; of the others the lamp
wins. -/
theorem silence_hidden :
    let sel := looseConfig.selector none 0 .single
    (Timers.empty true).Reliable ∧
      ((sel.flush "101" silentLit (.empty true)).winners.toOption.map (·.map (·.rule)) =
        some [.master looseRule]) ∧
      silentLit.filter looseConfig.ofInterest ≠ [] ∧
      (sel.flush "101" (silentLit.filter looseConfig.ofInterest) (.empty true)).winners.toOption.map
        (·.map (·.rule)) = some [.simple (.reads "Tag1" 1 0)] := by
  intro sel
  refine ⟨Timers.empty_reliable true, ?_, ?_, ?_⟩
  · have hsorted : Sample.sorted silentLit = silentLit := Sample.sorted_of_ordered (by decide)
    have hmasters : sel.masters = [looseRule] := rfl
    simp only [Selector.flush, hmasters, arbitrate, arbitrateFrom, MasterRule.verdict, ActiveRun.find,
      hsorted]
    decide +kernel
  · rw [silentLit_ofInterest]
    exact List.cons_ne_nil _ _
  · rw [silentLit_ofInterest]
    decide +kernel

end Config

end FaultDesk
