import FaultDesk.Proofs.Outcome
import FaultDesk.Proofs.Selection.Escape

/-!
The grounds of a winner. Each winner of a block is traced back through the judgement to a sample of the
block and to a rule of the selector, with all that the rule has asked of the sample.
-/

namespace FaultDesk

/-! ## Verdicts -/

theorem Rule.prerequisiteHolds_of_verdict_true {r : Rule} {s : Sample} {related : List Sample}
    {t : Timers} (h : (r.verdict s related t).1 = .ok true) :
    r.prerequisiteHolds s related = .ok true := by
  unfold Rule.verdict at h
  split at h
  next => cases h
  next => cases h
  next hp => exact hp

namespace RateRule

variable {r : RateRule} {s : Sample} {related : List Sample} {past : History} {now : Instant}
  {t : Timers} {st : RateStats}

/-- The timer of a gated rate rule is asked only where its condition is true. -/
theorem holdsFor_of_gate {b : Bool} (h : (r.gate s t).1 = .ok (some b)) (hg : r.gated = true) :
    r.holdsFor s.value = .ok true := by
  unfold gate at h
  rw [if_pos hg] at h
  split at h
  next => cases h
  next =>
    split at h
    next => cases h
    next => cases h
    next hholds => exact hholds

theorem of_verdict_some (h : (r.verdict s related past now t).1 = .ok (some st)) :
    r.prerequisiteHolds s related = .ok true ∧ (r.gated = true → r.holdsFor s.value = .ok true) ∧
      r.share past now = .ok (some st) := by
  unfold verdict at h
  split at h
  next => cases h
  next => cases h
  next hp =>
    split at h
    next => cases h
    next => cases h
    next sustained u hgate =>
      refine ⟨hp, fun hg => holdsFor_of_gate (congrArg Prod.fst hgate) hg, ?_⟩
      obtain ⟨found, hshare, h⟩ := bind_eq_ok_iff.mp h
      cases found with
      | none => cases h
      | some st' =>
        cases sustained with
        | false => cases h
        | true =>
          obtain rfl := Option.some.inj (Except.ok.inj h)
          exact hshare

/-- The stats that are found are those of the readings in the window, of which there are some. -/
theorem of_stats {since : Instant} (h : r.stats? past since = .ok (some st)) :
    0 < st.total ∧ ∃ matched, countHolding r.toRule (past.window r.tag since) = .ok matched ∧
      st = .ofCounts matched (past.window r.tag since).length := by
  unfold stats? at h
  dsimp only at h
  split at h
  next => cases h
  next hne =>
    obtain ⟨matched, hmatched, h⟩ := bind_eq_ok_iff.mp h
    obtain rfl := Option.some.inj (Except.ok.inj h)
    refine ⟨List.length_pos_iff.mpr ?_, matched, hmatched, rfl⟩
    simpa using hne

/-- The share that is found is not below the percentage of the rule. -/
theorem of_share (h : r.share past now = .ok (some st)) :
    (∃ since, r.windowStart now = .ok since ∧ r.stats? past since = .ok (some st)) ∧
      st.percent.lt r.thresholdPercent = false := by
  obtain ⟨since, hsince, h⟩ := bind_eq_ok_iff.mp h
  obtain ⟨found, hfound, h⟩ := bind_eq_ok_iff.mp h
  cases found with
  | none => cases h
  | some st' =>
    dsimp only at h
    split at h
    next => cases h
    next hlt =>
      obtain rfl := Option.some.inj (Except.ok.inj h)
      exact ⟨⟨since, hsince, hfound⟩, eq_false_of_ne_true hlt⟩

end RateRule

theorem MasterRule.of_verdict_some {r : MasterRule} {unit : String} {samples : List Sample}
    {t : Timers} {m : MasterMatch} (h : (r.verdict unit samples t).1 = .ok (some m)) :
    m.rule = r ∧ (r.relevant samples).getLast? = some m.sample ∧
      r.holdsAt m.sample.value = .ok true := by
  unfold verdict at h
  split at h
  next => cases h
  next =>
    split at h
    next => cases h
    next => cases h
    next run hrun =>
      obtain ⟨-, hlatest, -⟩ := ActiveRun.find_some hrun
      obtain ⟨hlast, htrue⟩ := getLast?_trailing hlatest
      split at h
      next => cases h
      next => cases h
      next =>
        obtain rfl := Option.some.inj (Except.ok.inj h)
        exact ⟨rfl, hlast, of_decide_eq_true htrue⟩

/-! ## Grounds -/

/-- What a master rule has to go by in a block: its condition is true at the last sample it looks
at. -/
structure MasterMatch.Grounded (rules : List MasterRule) (samples : List Sample) (m : MasterMatch) :
    Prop where
  mem : m.rule ∈ rules
  enabled : m.rule.enabled = true
  last : (m.rule.relevant samples).getLast? = some m.sample
  holds : m.rule.holdsAt m.sample.value = .ok true

theorem grounded_of_arbitrateFrom {unit : String} {samples : List Sample}
    {all rules : List MasterRule} {collected : List MasterMatch} {t : Timers} {a : Arbitration}
    (hrules : ∀ r ∈ rules, r ∈ all) (hcollected : ∀ m ∈ collected, m.Grounded all samples)
    (h : (arbitrateFrom unit samples collected rules t).1 = .ok a) :
    ∀ m, a.blocking = some m ∨ m ∈ a.collected → m.Grounded all samples := by
  -- Kept along the rules: what has been collected so far is grounded.
  induction rules generalizing collected t with
  | nil =>
    obtain rfl := Except.ok.inj h
    rintro m (hm | hm)
    · cases hm
    · exact hcollected m hm
  | cons r rest ih =>
    have hrest : ∀ q ∈ rest, q ∈ all := fun q hq => hrules q (List.mem_cons_of_mem r hq)
    simp only [arbitrateFrom] at h
    split at h
    next hon =>
      split at h
      next => cases h
      next => exact ih hrest hcollected h
      next m u hv =>
        obtain ⟨rfl, hlast, hholds⟩ := MasterRule.of_verdict_some (congrArg Prod.fst hv)
        have hm : m.Grounded all samples := ⟨hrules _ List.mem_cons_self, hon, hlast, hholds⟩
        split at h
        next =>
          obtain rfl := Except.ok.inj h
          rintro m' (hm' | hm')
          · rw [← Option.some.inj hm']
            exact hm
          · cases hm'
        next =>
          refine ih hrest ?_ h
          intro m' hm'
          rcases List.mem_append.mp hm' with hm' | hm'
          · exact hcollected m' hm'
          · rw [List.mem_singleton.mp hm']
            exact hm
    next => exact ih hrest hcollected h

/-- What an ordinary rule has to go by at a sample, which comes with those related to it. -/
inductive Selector.Hit (sel : Selector) (unit : String) (pairs : List (Sample × List Sample)) :
    Candidate → Prop where
  | simple {s : Sample} {related : List Sample} {r : Rule} (seen : (s, related) ∈ pairs)
      (mem : r ∈ sel.simple) (watches : r.watches s = true)
      (prerequisite : r.prerequisiteHolds s related = .ok true)
      (holds : r.holdsFor s.value = .ok true) : Hit sel unit pairs (.ofSample s (.simple r) none)
  | rate {s : Sample} {related : List Sample} {r : RateRule} {past : History} {st : RateStats}
      (seen : (s, related) ∈ pairs) (mem : r ∈ sel.rate) (watches : r.watches s = true)
      (prerequisite : r.prerequisiteHolds s related = .ok true)
      (holds : r.gated = true → r.holdsFor s.value = .ok true)
      (recalled : sel.historyOf unit = .ok past) (share : r.share past sel.now = .ok (some st)) :
      Hit sel unit pairs (.ofSample s (.rate r) (some st))

namespace Selector

variable {sel : Selector} {unit : String} {pairs : List (Sample × List Sample)} {samples : List Sample}
  {t : Timers}

theorem hit_trySimple {s : Sample} {related : List Sample} (hp : (s, related) ∈ pairs)
    {st : Search} :
    ∀ c ∈ (sel.trySimple s related st).hits, c ∈ st.hits ∨ sel.Hit unit pairs c := by
  intro c hc
  unfold trySimple at hc
  split at hc
  next => exact Or.inl hc
  next p r u hm =>
    have hmatch : (firstMatch s related sel.simple st.timers).1 = some (p, r) := by rw [hm]
    obtain ⟨hr, hw, -, hverdict⟩ := firstMatch_some hmatch
    have hv := congrArg Prod.fst hverdict
    rcases List.mem_append.mp hc with hc | hc
    · exact Or.inl hc
    · rw [List.mem_singleton.mp hc]
      exact Or.inr (.simple hp (List.mem_of_getElem? hr) hw
        (Rule.prerequisiteHolds_of_verdict_true hv) (Rule.holdsFor_of_verdict_true hv))

theorem hit_rateFrom {s : Sample} {related : List Sample} (hp : (s, related) ∈ pairs) {past : History}
    (hpast : sel.historyOf unit = .ok past) {rules : List RateRule}
    (hrules : ∀ r ∈ rules, r ∈ sel.rate ∧ r.watches s = true) {t : Timers} {c : Candidate}
    (hc : (rateFrom s related past sel.now rules t).1 = some c) : sel.Hit unit pairs c := by
  obtain ⟨r, hr, st, u, hv, rfl⟩ := of_rateFrom hc
  obtain ⟨hprerequisite, hholds, hshare⟩ := RateRule.of_verdict_some hv
  obtain ⟨hmem, hw⟩ := hrules r hr
  exact .rate hp hmem hw hprerequisite hholds hpast hshare

theorem hit_tryRate {s : Sample} {related : List Sample} (hp : (s, related) ∈ pairs) {past : History}
    (hpast : sel.historyOf unit = .ok past) {st : Search} :
    ∀ c ∈ (sel.tryRate s related past st).hits, c ∈ st.hits ∨ sel.Hit unit pairs c := by
  intro c hc
  unfold tryRate at hc
  split at hc
  next => exact Or.inl hc
  next d u hd =>
    rcases List.mem_append.mp hc with hc | hc
    · exact Or.inl hc
    · rw [List.mem_singleton.mp hc]
      refine Or.inr (hit_rateFrom hp hpast ?_ (congrArg Prod.fst hd))
      intro r hr
      obtain ⟨hmem, hw⟩ := List.mem_filter.mp hr
      exact ⟨hmem, hw⟩

/-- Whatever a search hits, an ordinary rule has the grounds for. The past readings it goes by are those
of the unit. -/
theorem hit_search {rest : List (Sample × List Sample)} (hrest : ∀ p ∈ rest, p ∈ pairs)
    {st : Search} (hst : ∀ past, st.history = some past → sel.historyOf unit = .ok past) :
    ∀ c ∈ (sel.search unit rest st).2.hits, c ∈ st.hits ∨ sel.Hit unit pairs c := by
  -- Kept along the samples: the past, once asked for, is the one the unit has.
  induction rest generalizing st with
  | nil => exact fun c hc => Or.inl hc
  | cons p rest ih =>
    obtain ⟨s, related⟩ := p
    have hp : (s, related) ∈ pairs := hrest _ List.mem_cons_self
    have hothers : ∀ p ∈ rest, p ∈ pairs := fun p hp => hrest p (List.mem_cons_of_mem _ hp)
    have hsame := @history_trySimple sel s related st
    have hsimple := @hit_trySimple sel unit pairs s related hp st
    have hlater {past : History} (hpast : sel.historyOf unit = .ok past) :
        ∀ c ∈ (sel.search unit rest (sel.tryRate s related past (sel.trySimple s related st))).2.hits,
          c ∈ st.hits ∨ sel.Hit unit pairs c := by
      intro c hc
      have hkept : ∀ past', (sel.tryRate s related past (sel.trySimple s related st)).history =
          some past' → sel.historyOf unit = .ok past' := by
        intro past' h
        rw [history_tryRate] at h
        rw [← Option.some.inj h]
        exact hpast
      rcases ih hothers hkept c hc with hc | hc
      · exact (hit_tryRate hp hpast c hc).elim (hsimple c) Or.inr
      · exact Or.inr hc
    simp only [search, hsame]
    split
    next =>
      split
      next past hpast => exact hlater (hst past hpast)
      next =>
        split
        next => exact hsimple
        next past hpast => exact hlater hpast
    next =>
      intro c hc
      rcases ih hothers (by rw [hsame]; exact hst) c hc with hc | hc
      · exact hsimple c hc
      · exact Or.inr hc

/-- What a winner of a block has to go by. -/
inductive Grounds (sel : Selector) (unit : String) (samples : List Sample) : Candidate → Prop where
  | master {m : MasterMatch} (grounded : m.Grounded sel.masters samples) :
      Grounds sel unit samples m.candidate
  | ordinary {c : Candidate} (hit : sel.Hit unit (withRelated [] (Sample.sorted samples)) c) :
      Grounds sel unit samples c

theorem grounds_of_flush {cs : List Candidate} (h : (sel.flush unit samples t).winners = .ok cs) :
    ∀ c ∈ cs, sel.Grounds unit samples c := by
  intro c hc
  by_cases hne : samples = []
  · subst samples
    obtain rfl := Except.ok.inj h
    cases hc
  · cases ha : (arbitrate unit (Sample.sorted samples) sel.masters t).1 with
    | error e =>
      rw [flush_of_arbitrate_error hne ha] at h
      cases h
    | ok a =>
      rw [flush_of_arbitrate hne ha] at h
      split at h
      next m hm =>
        obtain rfl := Except.ok.inj h
        have hgrounded := grounded_of_arbitrateFrom (fun _ hr => hr) (by simp) ha m <| by
          rcases Option.or_eq_some_iff.mp hm with hm | ⟨-, hm⟩
          · exact Or.inl hm
          · obtain ⟨before, after, hsplit, -, -⟩ := latestBy_eq_some hm
            exact Or.inr (by simp [hsplit])
        have hlast := hgrounded.last
        rw [MasterRule.relevant_sorted] at hlast
        rw [List.mem_singleton.mp hc]
        exact .master ⟨hgrounded.mem, hgrounded.enabled, hlast, hgrounded.holds⟩
      next =>
        rw [winners_flushOrdinary h] at hc
        rcases hit_search (fun _ hp => hp) (by simp) c (WinnerPolicy.mem_of_winners hc) with hc | hc
        · cases hc
        · exact .ordinary hc

/-- Every winner of a selection has the grounds in one of its blocks. -/
theorem grounds_of_select {wanted : Option Nat} {stream extra : List Sample} {c : Candidate}
    (h : .winner c ∈ (sel.select wanted stream extra t).1) :
    ∃ b ∈ blocks stream extra, sel.Grounds b.unit b.samples c := by
  obtain ⟨b, hb, u, cs, hflush, hc⟩ := flush_of_mem_selectFrom h
  exact ⟨b, hb, grounds_of_flush hflush c hc⟩

end Selector

theorem SelectionEvent.exists_winner {α : Type} {f : Candidate → α} {x : α}
    {events : List SelectionEvent} (h : (events.filterMap winner?).map f = [x]) :
    ∃ c, .winner c ∈ events ∧ f c = x := by
  obtain ⟨c, hc, hx⟩ := List.mem_map.mp (h ▸ List.mem_singleton_self x)
  obtain ⟨e, he, hec⟩ := List.mem_filterMap.mp hc
  cases e <;> cases hec
  exact ⟨c, he, hx⟩

end FaultDesk
