import FaultDesk.Config.Intake
import FaultDesk.Proofs.Arbitration.Breakdown
import FaultDesk.Proofs.Rate.Calls
import FaultDesk.Proofs.Selection.Completion

/-!
What ends a selection before its last block. A simple rule or a rate rule that cannot be judged counts
as not matching, and a failure of the timers is let pass; but a master rule that cannot be judged, or
past readings that cannot be put in form, end the whole selection.
-/

namespace FaultDesk

/-! ## Ordinary rules that cannot be judged -/

/-- A simple rule that cannot be judged is passed over. -/
theorem matchFrom_of_error {s : Sample} {related : List Sample} {n : Nat} {front back : List Rule}
    {r : Rule} {t u v : Timers} {e : Failure} (hfront : matchFrom s related n front t = (none, u))
    (hw : r.watches s = true) (hr : r.verdict s related u = (.error e, v)) :
    matchFrom s related n (front ++ r :: back) t =
      matchFrom s related (n + front.length + 1) back v := by
  rw [matchFrom_append, hfront]
  simp only [matchFrom, hw, ↓reduceIte]
  rw [hr]

/-- A rate rule that cannot be judged is passed over. -/
theorem rateFrom_of_error {s : Sample} {related : List Sample} {h : History} {now : Instant}
    {front back : List RateRule} {r : RateRule} {t u v : Timers} {e : Failure}
    (hfront : rateFrom s related h now front t = (none, u))
    (hr : r.verdict s related h now u = (.error e, v)) :
    rateFrom s related h now (front ++ r :: back) t = rateFrom s related h now back v := by
  rw [rateFrom_append, hfront]
  simp only [rateFrom]
  rw [hr]

/-! ## One block -/

theorem latestBy_eq_none {α : Type} {time : α → Instant} {items : List α} :
    latestBy time items = none ↔ items = [] := by
  cases items <;> simp [latestBy]

namespace Selector

variable {sel : Selector} {unit : String} {samples : List Sample} {t u : Timers} {e : Failure}

theorem history_trySimple (s : Sample) (related : List Sample) (st : Search) :
    (sel.trySimple s related st).history = st.history := by
  unfold trySimple
  split <;> rfl

theorem history_tryRate (s : Sample) (related : List Sample) (h : History) (st : Search) :
    (sel.tryRate s related h st).history = some h := by
  unfold tryRate
  split <;> rfl

/-- A search that has its past readings goes on to its end. -/
theorem search_of_history {h : History} {pairs : List (Sample × List Sample)} {st : Search}
    (hst : st.history = some h) : (sel.search unit pairs st).1 = none := by
  induction pairs generalizing st with
  | nil => rfl
  | cons p rest ih =>
    obtain ⟨s, related⟩ := p
    have hsimple : (sel.trySimple s related st).history = some h :=
      (history_trySimple s related st).trans hst
    simp only [search, hsimple]
    split
    next => exact ih (history_tryRate s related h _)
    next => exact ih hsimple

/-- A search fails when it asks for past readings that cannot be put in form. -/
theorem search_failed_iff {pairs : List (Sample × List Sample)} {st : Search}
    (hst : st.history = none) :
    (sel.search unit pairs st).1 = some e ↔
      (∃ p ∈ pairs, sel.asksHistory p.1 = true) ∧ sel.historyOf unit = .error e := by
  induction pairs generalizing st with
  | nil => simp [search]
  | cons p rest ih =>
    obtain ⟨s, related⟩ := p
    have hsimple : (sel.trySimple s related st).history = none :=
      (history_trySimple s related st).trans hst
    simp only [search, hsimple]
    cases hasks : sel.asksHistory s with
    | false => simpa [hasks] using ih hsimple
    | true =>
      cases hh : sel.historyOf unit with
      | error e' => simp [hasks]
      | ok h =>
        simp only [↓reduceIte, reduceCtorEq, and_false, iff_false]
        rw [search_of_history (history_tryRate s related h _)]
        simp

/-- What a block fails for. -/
inductive Escapes (sel : Selector) (unit : String) (samples : List Sample) (t : Timers) :
    Failure → Prop
  /-- A master rule is reached and cannot be judged. -/
  | master {front back : List MasterRule} {r : MasterRule} {collected : List MasterMatch}
      {u : Timers} {e : Failure} (nonempty : samples ≠ []) (split : sel.masters = front ++ r :: back)
      (reached : arbitrate unit (Sample.sorted samples) front t = (.ok ⟨none, collected⟩, u))
      (on : r.enabled = true) (breaks : r.Breaks unit (Sample.sorted samples) u e) :
      Escapes sel unit samples t e
  /-- No master rule matches, and the past readings that a sample asks for cannot be put in
  form. -/
  | history {s : Sample} {e : Failure}
      (unmatched : (arbitrate unit (Sample.sorted samples) sel.masters t).1 = .ok ⟨none, []⟩)
      (mem : s ∈ samples) (asks : sel.asksHistory s = true) (fails : sel.historyOf unit = .error e) :
      Escapes sel unit samples t e

theorem flushOrdinary_error_iff :
    (sel.flushOrdinary unit samples t).winners = .error e ↔
      (∃ s ∈ samples, sel.asksHistory s = true) ∧ sel.historyOf unit = .error e := by
  have hasks : (∃ p ∈ withRelated [] samples, sel.asksHistory p.1 = true) ↔
      ∃ s ∈ samples, sel.asksHistory s = true := by
    conv_rhs => rw [← map_fst_withRelated [] samples]
    simp
  have hsearch := @search_failed_iff sel unit e (withRelated [] samples) ⟨t, none, []⟩ rfl
  rw [hasks] at hsearch
  rw [← hsearch, flushOrdinary]
  split
  next e' st hst => simp [hst]
  next st hst => simp [hst]

theorem flush_error_iff :
    (sel.flush unit samples t).winners = .error e ↔ sel.Escapes unit samples t e := by
  by_cases hne : samples = []
  · subst samples
    constructor
    · intro h
      cases h
    · intro h
      cases h with
      | master nonempty => exact absurd rfl nonempty
      | history _ mem => cases mem
  · cases ha : (arbitrate unit (Sample.sorted samples) sel.masters t).1 with
    | error e' =>
      rw [flush_of_arbitrate_error hne ha]
      constructor
      · intro h
        rw [Except.error.inj h] at ha
        obtain ⟨front, r, back, c, u, hsplit, hreached, hon, hbreaks⟩ := arbitrateFrom_error_iff.mp ha
        exact .master hne hsplit hreached hon hbreaks
      · intro h
        cases h with
        | master _ split reached on breaks =>
          have hfails := arbitrateFrom_error_iff.mpr ⟨_, _, _, _, _, split, reached, on, breaks⟩
          rw [Except.error.inj (ha.symm.trans hfails)]
        | history unmatched =>
          rw [ha] at unmatched
          cases unmatched
    | ok a =>
      have hmaster : sel.Escapes unit samples t e ↔ a = ⟨none, []⟩ ∧
          (∃ s ∈ samples, sel.asksHistory s = true) ∧ sel.historyOf unit = .error e := by
        constructor
        · intro h
          cases h with
          | master _ split reached on breaks =>
            have hfails := arbitrateFrom_error_iff.mpr ⟨_, _, _, _, _, split, reached, on, breaks⟩
            cases ha.symm.trans hfails
          | history unmatched mem asks fails =>
            exact ⟨Except.ok.inj (ha.symm.trans unmatched), ⟨_, mem, asks⟩, fails⟩
        · rintro ⟨rfl, ⟨s, hs, hasks⟩, hfails⟩
          exact .history ha hs hasks hfails
      obtain ⟨blocking, collected⟩ := a
      rw [hmaster, flush_of_arbitrate hne ha]
      cases hlatest : latestBy (·.sample.time) collected with
      | some m =>
        have hcollected : collected ≠ [] := by
          rintro rfl
          cases hlatest
        cases blocking <;> simp [hcollected, Flush.ofMaster]
      | none =>
        obtain rfl := latestBy_eq_none.mp hlatest
        cases blocking with
        | some m => simp [Flush.ofMaster]
        | none => simp [flushOrdinary_error_iff, Sample.mem_sorted]

/-! ## Block after block -/

/-- The timers when blocks have been judged one after the other, if none of them fails. -/
def passed (sel : Selector) : List Block → Timers → Option Timers
  | [], t => some t
  | b :: rest, t =>
    match (sel.flush b.unit b.samples t).winners with
    | .error _ => none
    | .ok _ => passed sel rest (sel.flush b.unit b.samples t).timers

variable {given : List (String × String)} {steps : List SelectionStep}

/-- A selection that ends for an error has gone through blocks that do not fail, to one that
does. -/
theorem escapes_of_failed (h : .failed e ∈ (sel.follow given steps t).1) :
    ∃ before b after u, steps.filterMap SelectionStep.judged? = before ++ b :: after ∧
      sel.passed before t = some u ∧ (sel.flush b.unit b.samples u).winners = .error e := by
  induction steps generalizing given t with
  | nil => cases h
  | cons step rest ih =>
    cases step with
    | take s => exact ih (by simpa [follow] using h)
    | judge b =>
      cases hflush : (sel.flush b.unit b.samples t).winners with
      | error e' =>
        obtain rfl : e = e' := by
          cases hasked : (sel.flush b.unit b.samples t).asked <;>
            simpa [follow, hflush, hasked] using h
        exact ⟨[], b, rest.filterMap SelectionStep.judged?, t, rfl, rfl, hflush⟩
      | ok cs =>
        have hrest : .failed e ∈ (sel.follow (giveOut given none cs).2.1 rest
            (sel.flush b.unit b.samples t).timers).1 := by
          cases hasked : (sel.flush b.unit b.samples t).asked <;>
            simpa [follow, hflush, hasked] using h
        obtain ⟨before, c, after, u, hsplit, hpassed, hfails⟩ := ih hrest
        refine ⟨b :: before, c, after, u, ?_, ?_, hfails⟩
        · rw [List.filterMap_cons, hsplit]
          rfl
        · simpa [passed, hflush] using hpassed

/-- Behind blocks that do not fail one that does ends the selection; the blocks behind it are not
judged. -/
theorem failed_of_escapes {before after : List Block} {b : Block}
    (hsplit : steps.filterMap SelectionStep.judged? = before ++ b :: after)
    (hpassed : sel.passed before t = some u)
    (hfails : (sel.flush b.unit b.samples u).winners = .error e) :
    .failed e ∈ (sel.follow given steps t).1 ∧
      (sel.follow given steps t).1.filterMap SelectionEvent.flush? =
        (before ++ [b]).map (·.unit) := by
  induction steps generalizing given t before with
  | nil => simp at hsplit
  | cons step rest ih =>
    cases step with
    | take s =>
      obtain ⟨hmem, hflushed⟩ := ih hsplit hpassed
      refine ⟨List.mem_cons_of_mem _ hmem, ?_⟩
      simpa [follow, List.filterMap_cons, SelectionEvent.flush?] using hflushed
    | judge c =>
      cases before with
      | nil =>
        obtain ⟨rfl, -⟩ := List.cons.inj hsplit
        obtain rfl := Option.some.inj hpassed
        cases hasked : (sel.flush c.unit c.samples t).asked <;>
          simp [follow, hfails, hasked, SelectionEvent.flush?]
      | cons d before =>
        obtain ⟨rfl, hrest⟩ := List.cons.inj hsplit
        cases hflush : (sel.flush c.unit c.samples t).winners with
        | error e' => simp [passed, hflush] at hpassed
        | ok cs =>
          have hpassed' : sel.passed before (sel.flush c.unit c.samples t).timers = some u := by
            simpa [passed, hflush] using hpassed
          obtain ⟨hmem, hflushed⟩ := @ih _ (giveOut given none cs).2.1 before hrest hpassed'
          have hevents := SelectionEvent.of_block c.unit (sel.flush c.unit c.samples t).asked
            (giveOut given none cs).1
          simp only [follow, hflush, List.filterMap_append, hflushed]
          refine ⟨List.mem_append_right _ hmem, ?_⟩
          rw [← List.filterMap_append, hevents.2.1]
          rfl

/-- A selection ends for an error exactly where the first block that fails is reached, and no block
behind it is judged; otherwise all blocks are judged. Wherever a simple rule or a rate rule cannot be
judged, the rules behind it are gone through as if it did not match. -/
theorem select_stops_iff (sel : Selector) (stream extra : List Sample) (t : Timers) :
    (∀ e, .failed e ∈ (sel.select none stream extra t).1 ↔
      ∃ before b after u, blocks stream extra = before ++ b :: after ∧
        sel.passed before t = some u ∧ sel.Escapes b.unit b.samples u e ∧
          (sel.select none stream extra t).1.filterMap SelectionEvent.flush? =
            (before ++ [b]).map (·.unit)) ∧
    ((∀ e, .failed e ∉ (sel.select none stream extra t).1) →
      (sel.select none stream extra t).1.filterMap SelectionEvent.flush? =
        (blocks stream extra).map (·.unit)) ∧
    (∀ s related n front r back t u v e, matchFrom s related n front t = (none, u) →
      r.watches s = true → r.verdict s related u = (.error e, v) →
        matchFrom s related n (front ++ r :: back) t =
          matchFrom s related (n + front.length + 1) back v) ∧
    ∀ s related h now front r back t u v e, rateFrom s related h now front t = (none, u) →
      r.verdict s related h now u = (.error e, v) →
        rateFrom s related h now (front ++ r :: back) t = rateFrom s related h now back v := by
  refine ⟨?_, ?_, fun _ _ _ _ _ _ _ _ _ _ => matchFrom_of_error,
    fun _ _ _ _ _ _ _ _ _ _ _ => rateFrom_of_error⟩
  · intro e
    rw [select_eq_follow, ← judged_selectionSteps]
    constructor
    · intro h
      obtain ⟨before, b, after, u, hsplit, hpassed, hfails⟩ := escapes_of_failed h
      exact ⟨before, b, after, u, hsplit, hpassed, flush_error_iff.mp hfails,
        (failed_of_escapes hsplit hpassed hfails).2⟩
    · rintro ⟨before, b, after, u, hsplit, hpassed, hescapes, -⟩
      exact (failed_of_escapes hsplit hpassed (flush_error_iff.mpr hescapes)).1
  · intro hdone
    rw [(select_complete hdone).2.judged, judged_selectionSteps]

/-! ## A duration that no time reaches, and a reading without a number -/

/-- A configuration with one master rule, which collects a silence that lasts so long. -/
def silenceFor (duration : Datum) : Datum :=
  .object [("masterRules", .list [.object [("tag", .text "Tag8"), ("value", .int 0),
    ("priority", .int 2), ("duration", duration)]])]

/-- The rule of that configuration. -/
def lastingSilence (duration : Option Duration) : MasterRule :=
  ⟨{ Rule.reads "Tag8" 0 0 with alarmKind := "CRITICAL", duration := duration }, 2⟩

/-- More days than a span can have. -/
def endless : Duration := ⟨Double.ofNat 1000000000, .day, .continuous⟩

/-- A reading of one unit, and one of the unit behind it. -/
def neighbours (n : Int) : List Sample :=
  [.reading "Tag8" n 0, { Sample.reading "Tag8" 1 5 with unit := "102" }]

theorem judged_neighbours (n : Int) :
    (selectionSteps (neighbours n) []).filterMap SelectionStep.judged? =
      [⟨"101", [.reading "Tag8" n 0], []⟩,
        ⟨"102", [{ Sample.reading "Tag8" 1 5 with unit := "102" }], []⟩] := by
  have hextra : extraBlocks [] = [] := by
    simp [extraBlocks, ascending, List.eraseReps, List.eraseRepsBy]
  rw [judged_selectionSteps, blocks]
  simp [neighbours, byUnit, streamBlocks, Sample.reading, hextra]

theorem concerns_lastingSilence (duration : Option Duration) (n : Int) :
    (lastingSilence duration).concerns (.reading "Tag8" n 0) = true := by
  simp [MasterRule.concerns, lastingSilence, Rule.reads, Sample.reading, SourceKind.fits]

theorem sorted_reading (n : Int) :
    Sample.sorted [.reading "Tag8" n 0] = [.reading "Tag8" n 0] :=
  Sample.sorted_of_ordered (List.pairwise_singleton _ _)

/-- Where the only master rule cannot be judged on the first unit, the second is not judged. -/
theorem neighbours_stopped {m : MasterRule} {n : Int} (hmasters : sel.masters = [m])
    (hon : m.enabled = true) (hbreaks : m.Breaks "101" [.reading "Tag8" n 0] t e) :
    .failed e ∈ (sel.select none (neighbours n) [] t).1 ∧
      (sel.select none (neighbours n) [] t).1.filterMap SelectionEvent.flush? = ["101"] := by
  have hbreaks' : m.Breaks "101" (Sample.sorted [.reading "Tag8" n 0]) t e := by
    rw [sorted_reading]
    exact hbreaks
  have hescapes : sel.Escapes "101" [.reading "Tag8" n 0] t e :=
    @Escapes.master _ _ _ _ [] [] m [] t e (by simp) hmasters rfl hon hbreaks'
  rw [select_eq_follow]
  exact @failed_of_escapes _ t t e [] _ [] _ ⟨"101", [.reading "Tag8" n 0], []⟩
    (judged_neighbours n) rfl (flush_error_iff.mpr hescapes)

/-- Both configurations are taken; the first unit ends the selection, and the second is not
judged. -/
theorem silence_stops_selection :
    (∃ c, Config.check (silenceFor (.text "1000000000d")) = .ok c ∧
      let events := ((ofConfig c none 0).select none (neighbours 0) [] (.empty false)).1
      .failed (.spanTooLong 1000000000) ∈ events ∧
        events.filterMap SelectionEvent.flush? = ["101"]) ∧
    ∃ c, Config.check (silenceFor .null) = .ok c ∧
      let events := ((ofConfig c none 0).select none (neighbours (Int.pow 10 400)) [] (.empty false)).1
      .failed .wholeTooLarge ∈ events ∧ events.filterMap SelectionEvent.flush? = ["101"] := by
  have htaken {raw : Datum} {m : MasterRule}
      (h : (Config.check raw).toOption.map (·.activeMasters) = some [m]) :
      ∃ c, Config.check raw = .ok c ∧ (ofConfig c none 0).masters = [m] := by
    cases hc : Config.check raw with
    | error e => simp [hc, Except.toOption] at h
    | ok c => exact ⟨c, rfl, by simpa [hc, Except.toOption, ofConfig] using h⟩
  constructor
  · obtain ⟨c, hc, hmasters⟩ := @htaken (silenceFor (.text "1000000000d"))
      (lastingSilence (some endless)) (by decide +kernel)
    refine ⟨c, hc, neighbours_stopped hmasters rfl ?_⟩
    refine @MasterRule.Breaks.timer _ _ _ _ ⟨"101", "Tag8", "0"⟩
      ⟨.reading "Tag8" 0 0, .reading "Tag8" 0 0, false⟩ endless (.utc 0) _ _ (by decide +kernel)
      ?_ (by decide) rfl (by decide +kernel) rfl (by decide +kernel)
    have htrue : (lastingSilence (some endless)).holdsAt (Sample.reading "Tag8" 0 0).value =
        .ok true := by decide +kernel
    rw [ActiveRun.find, sorted_reading]
    simp only [ActiveRun.follow, concerns_lastingSilence, htrue, ↓reduceIte]
    rfl
  · obtain ⟨c, hc, hmasters⟩ := @htaken (silenceFor .null) (lastingSilence none) (by decide +kernel)
    refine ⟨c, hc, neighbours_stopped hmasters rfl ?_⟩
    have hsound : (lastingSilence none).threshold.datum.Readable := by
      intro e h
      have hzero : (lastingSilence none).threshold.datum.number? = .ok (some .zero) := by
        decide +kernel
      rw [Datum.number?_error_iff.mpr h] at hzero
      cases hzero
    have hlarge : Double.ofInt (Int.pow 10 400) = .infinite false := by decide +kernel
    refine @MasterRule.Breaks.reading _ _ _ _ [] [] (.reading "Tag8" (Int.pow 10 400) 0) _ hsound ?_
      (by simp) (.whole hlarge)
    rw [MasterRule.relevant, sorted_reading, List.filter_cons_of_pos (concerns_lastingSilence _ _)]
    rfl

end Selector

end FaultDesk
