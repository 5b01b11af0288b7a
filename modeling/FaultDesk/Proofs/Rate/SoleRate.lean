import FaultDesk.Proofs.Matching.SoleRule
import FaultDesk.Proofs.Rate.Calls
import FaultDesk.Proofs.Selection.Grounds

/-!
The exact meaning of a gated rate rule that is the only one. Its timer is that of a simple rule of the
same tag and condition: it runs since the first sample of the unbroken block of true samples, whatever
the share of readings has been meanwhile. The rule is triggered where that block has lasted long enough
and the share in the window reaches the percentage.
-/

namespace FaultDesk

/-! ## The share of readings in a window -/

/-- Counting goes through if every value can be judged, and counts the values that satisfy the
condition. -/
theorem countHolding_eq_ok_iff {r : Rule} {values : List Datum} {n : Nat} :
    countHolding r values = .ok n ↔
      (∀ v ∈ values, ∃ b, r.holdsFor v = .ok b) ∧
        n = values.countP fun v => decide (r.holdsFor v = .ok true) := by
  induction values generalizing n with
  | nil => simp [countHolding, eq_comm]
  | cons v rest ih =>
    unfold countHolding
    rw [List.forall_mem_cons, List.countP_cons]
    cases hv : r.holdsFor v with
    | error e =>
      constructor
      · rintro ⟨⟩
      · rintro ⟨⟨⟨b, ⟨⟩⟩, -⟩, -⟩
    | ok b =>
      cases hrest : countHolding r rest with
      | error e =>
        constructor
        · rintro ⟨⟩
        · rintro ⟨⟨-, hall⟩, -⟩
          rw [ih.mpr ⟨hall, rfl⟩] at hrest
          cases hrest
      | ok m =>
        obtain ⟨hall, rfl⟩ := ih.mp hrest
        have hjudged : (∃ b', (.ok b : Except Failure Bool) = .ok b') ∧
            ∀ x ∈ rest, ∃ b', r.holdsFor x = .ok b' := ⟨⟨b, rfl⟩, hall⟩
        rw [and_iff_right hjudged]
        cases b <;> simp [bind, Except.bind, pure, Except.pure, @eq_comm _ n]

namespace RateRule

/-- The readings in the window before an instant, of which there are some, and how many of them satisfy
the condition. -/
def Shares (r : RateRule) (past : List Sample) (now : Instant) (st : RateStats) : Prop :=
  ∃ h since, History.ofSamples past = .ok h ∧ r.windowStart now = .ok since ∧
    h.window r.tag since ≠ [] ∧ (∀ v ∈ h.window r.tag since, ∃ b, r.holdsFor v = .ok b) ∧
      st = .ofCounts ((h.window r.tag since).countP fun v => decide (r.holdsFor v = .ok true))
        (h.window r.tag since).length

variable {r : RateRule} {s : Sample} {related past : List Sample} {h : History} {now : Instant}
  {t : Timers} {st : RateStats}

theorem share_eq_some_iff (hform : History.ofSamples past = .ok h) :
    r.share h now = .ok (some st) ↔
      r.Shares past now st ∧ st.percent.lt r.thresholdPercent = false := by
  constructor
  · intro hshare
    obtain ⟨⟨since, hsince, hstats⟩, hreaches⟩ := of_share hshare
    obtain ⟨hsome, matched, hcount, rfl⟩ := of_stats hstats
    obtain ⟨hall, rfl⟩ := countHolding_eq_ok_iff.mp hcount
    exact ⟨⟨h, since, hform, hsince, List.ne_nil_of_length_pos hsome, hall, rfl⟩, hreaches⟩
  · rintro ⟨⟨h', since, hform', hsince, hne, hall, rfl⟩, hreaches⟩
    obtain rfl := Except.ok.inj (hform'.symm.trans hform)
    have hcount := countHolding_eq_ok_iff.mpr ⟨hall, rfl⟩
    have hstats : r.stats? h' since = .ok (some (.ofCounts
        ((h'.window r.tag since).countP fun v => decide (r.holdsFor v = .ok true))
        (h'.window r.tag since).length)) := by
      unfold stats?
      simp only [List.isEmpty_eq_false_iff.mpr hne, Bool.false_eq_true, ↓reduceIte, hcount]
      rfl
    simp [share, hsince, hstats, bind, Except.bind, pure, Except.pure, hreaches]

/-! ## One call -/

/-- The timer of a gated rate rule is asked and dropped as that of the simple rule it contains. -/
theorem gate_eq_verdict (hg : r.gated = true) (hpre : r.prerequisite = none)
    (heval : ∃ b, r.holdsFor s.value = .ok b) :
    (r.gate s t).2 = (r.toRule.verdict s related t).2 ∧
      ((r.gate s t).1 = .ok (some true) ↔ (r.toRule.verdict s related t).1 = .ok true) := by
  obtain ⟨b, hb⟩ := heval
  obtain ⟨key, hk⟩ := Rule.timerKey_of_holdsFor hb s.unit
  have hholds : r.prerequisiteHolds s related = .ok true := by
    unfold Rule.prerequisiteHolds
    rw [hpre]
  cases b with
  | false => simp [gate, Rule.verdict, Rule.clearTimer, hg, hk, hb, hholds]
  | true =>
    cases hask : t.sustained key r.duration (.utc s.time) none with
    | mk result u =>
      cases result with
      | error e => simp [gate, Rule.verdict, Rule.askTimer, hg, hk, hb, hholds, hask]
      | ok sustained => simp [gate, Rule.verdict, Rule.askTimer, hg, hk, hb, hholds, hask]

theorem verdict_snd (hpre : r.prerequisite = none) :
    (r.verdict s related h now t).2 = (r.gate s t).2 := by
  have hholds : r.prerequisiteHolds s related = .ok true := by
    unfold Rule.prerequisiteHolds
    rw [hpre]
  unfold verdict
  rw [hholds]
  dsimp only
  split
  next hgate => rw [hgate]
  next hgate => rw [hgate]
  next hgate => rw [hgate]

theorem verdict_some_iff (hpre : r.prerequisite = none) :
    (r.verdict s related h now t).1 = .ok (some st) ↔
      (r.gate s t).1 = .ok (some true) ∧ r.share h now = .ok (some st) := by
  have hholds : r.prerequisiteHolds s related = .ok true := by
    unfold Rule.prerequisiteHolds
    rw [hpre]
  unfold verdict
  rw [hholds]
  dsimp only
  split
  next hgate => simp [hgate]
  next hgate => simp [hgate]
  next sustained u hgate =>
    rw [hgate]
    cases hshare : r.share h now with
    | error e => simp [bind, Except.bind]
    | ok found => cases found <;> cases sustained <;> simp [bind, Except.bind, pure, Except.pure]

end RateRule

/-- A call of the rate rules: the sample with the related ones of its unit, past readings, and the time
at which the window ends. -/
structure RateCall where
  sample : Sample
  related : List Sample
  past : List Sample
  now : Instant

namespace RateCall

/-- What a call of the rules gives, and the timers after it. -/
def ask (c : RateCall) (rules : List RateRule) (t : Timers) :
    Except Failure (Option Candidate) × Timers :=
  firstRate c.sample c.related c.past c.now rules t

/-- The same sample for simple rules. -/
def plain (c : RateCall) : Sample × List Sample := (c.sample, c.related)

variable {c : RateCall} {r : RateRule} {t : Timers} {h : History}

theorem ask_unwatched (hw : r.watches c.sample = false) : c.ask [r] t = (.ok none, t) := by
  simp [ask, firstRate, hw]

theorem ask_watched (hw : r.watches c.sample = true) (hform : History.ofSamples c.past = .ok h) :
    (c.ask [r] t).2 = (r.verdict c.sample c.related h c.now t).2 ∧
      (∃ found, (c.ask [r] t).1 = .ok found) ∧
      ∀ w, (c.ask [r] t).1 = .ok (some w) ↔
        ∃ st, (r.verdict c.sample c.related h c.now t).1 = .ok (some st) ∧
          w = .ofSample c.sample (.rate r) (some st) := by
  have hask : c.ask [r] t =
      (.ok (rateFrom c.sample c.related h c.now [r] t).1,
        (rateFrom c.sample c.related h c.now [r] t).2) := by
    simp [ask, firstRate, firstRateIn, hw, hform]
  rw [hask]
  unfold rateFrom
  cases hv : r.verdict c.sample c.related h c.now t with
  | mk result u =>
    rcases result with e | found
    · simp [rateFrom]
    · cases found with
      | none => simp [rateFrom]
      | some st => simp [eq_comm]

end RateCall

/-- The timers when so many calls of the rate rules have been made. -/
def ratesAfter (rules : List RateRule) (calls : List RateCall) (t : Timers) (n : Nat) : Timers :=
  (calls.take n).foldl (fun u c => (c.ask rules u).2) t

section Sole

variable {r : RateRule} {calls : List RateCall} {d : Duration} {durable : Bool}

/-- The timers of the sole rate rule are those of the simple rule it contains. -/
theorem ratesAfter_eq_recordsAfter (hg : r.gated = true) (hpre : r.prerequisite = none)
    (heval : ∀ c ∈ calls, r.watches c.sample = true → ∃ b, r.holdsFor c.sample.value = .ok b)
    (hform : ∀ c ∈ calls, r.watches c.sample = true → ∃ h, History.ofSamples c.past = .ok h)
    (t : Timers) (n : Nat) :
    ratesAfter [r] calls t n = recordsAfter [r.toRule] (calls.map RateCall.plain) t n := by
  unfold ratesAfter recordsAfter
  rw [← List.map_take]
  have hcalls : ∀ c ∈ calls.take n, c ∈ calls := fun c hc => List.mem_of_mem_take hc
  generalize calls.take n = taken at hcalls
  induction taken generalizing t with
  | nil => rfl
  | cons c rest ih =>
    have hc := hcalls c List.mem_cons_self
    have hstep : (c.ask [r] t).2 = (firstMatch c.sample c.related [r.toRule] t).2 := by
      cases hw : r.watches c.sample with
      | false =>
        have hplain : ∀ q ∈ [r.toRule], q.watches c.sample = false := by simpa using hw
        rw [RateCall.ask_unwatched hw, firstMatch, matchFrom_unwatched hplain]
      | true =>
        obtain ⟨h, hh⟩ := hform c hc hw
        have hsole := @firstMatch_sole [] [] r.toRule c.sample c.related t (by simp) hw
        rw [(RateCall.ask_watched hw hh).1, RateRule.verdict_snd hpre,
          (RateRule.gate_eq_verdict hg hpre (heval c hc hw)).1]
        exact hsole.1.symm
    rw [List.foldl_cons, List.map_cons, List.foldl_cons, hstep]
    exact ih _ fun c' hc' => hcalls c' (List.mem_cons_of_mem c hc')

/-- The timer of the sole rate rule at a unit runs since the first sample of the block. -/
theorem find?_ratesAfter_sole (hg : r.gated = true) (hpre : r.prerequisite = none)
    (hdated : ∀ c ∈ calls, c.sample.Dated)
    (heval : ∀ c ∈ calls, r.watches c.sample = true → ∃ b, r.holdsFor c.sample.value = .ok b)
    (hform : ∀ c ∈ calls, r.watches c.sample = true → ∃ h, History.ofSamples c.past = .ok h)
    {unit : String} {key : TimerKey} (hk : r.timerKey unit = .ok key) {n : Nat}
    (hn : n ≤ calls.length) :
    (ratesAfter [r] calls (.empty durable) n).find? key =
      (r.trueBlock unit ((calls.take n).map RateCall.plain)).head?.map fun s =>
        (Timers.empty durable).kept (.utc s.time) := by
  have hplains : ∀ x ∈ calls.map RateCall.plain, ∃ c ∈ calls, x = c.plain := by
    intro x hx
    obtain ⟨c, hc, rfl⟩ := List.mem_map.mp hx
    exact ⟨c, hc, rfl⟩
  rw [ratesAfter_eq_recordsAfter hg hpre heval hform, List.map_take]
  refine @find?_recordsAfter_sole [] [] r.toRule _ durable unit key (by simp) hg hpre hk ?_ ?_ n
    (by simpa using hn)
  · intro x hx
    obtain ⟨c, hc, rfl⟩ := hplains x hx
    exact hdated c hc
  · intro x hx
    obtain ⟨c, hc, rfl⟩ := hplains x hx
    exact heval c hc

/-- A gated rule that looks at a sample, asked after the samples before it, says true if its condition
holds there and the block that ends there has lasted long enough. -/
theorem Rule.verdict_after_block {q : Rule} {plains : List (Sample × List Sample)} {s : Sample}
    {related : List Sample} {u : Timers} (hd : q.duration = some d) (hinstant : d.isInstant = false)
    (hpre : q.prerequisite = none) (hw : q.watches s = true) (hdate : s.Dated)
    (heval : ∃ b, q.holdsFor s.value = .ok b) (hr : u.Reliable)
    (hstart : ∀ key, q.timerKey s.unit = .ok key → u.find? key =
      (q.trueBlock s.unit plains).head?.map fun x => u.kept (.utc x.time)) :
    (q.verdict s related u).1 = .ok true ↔
      q.holdsFor s.value = .ok true ∧
        ∃ first span, (q.trueBlock s.unit (plains ++ [(s, related)])).head? = some first ∧
          d.span = .ok span ∧ span ≤ s.time - first.time := by
  obtain ⟨b, hb⟩ := heval
  obtain ⟨key, hk⟩ := Rule.timerKey_of_holdsFor hb s.unit
  have hsees : q.sees s.unit s = true := Rule.sees_iff.mpr ⟨rfl, hw⟩
  have hfound : u.find? key =
      ((q.trueBlock s.unit plains).head?.map (·.time)).map fun i => u.kept (.utc i) := by
    rw [hstart key hk, Option.map_map]
    rfl
  rw [Rule.verdict_true_iff hr hd hinstant hpre hk hsees hdate hfound]
  refine and_congr_right fun htrue => ?_
  have hblock : q.trueBlock s.unit (plains ++ [(s, related)]) = q.trueBlock s.unit plains ++ [s] := by
    have htrueAt : q.trueAt s = true := decide_eq_true htrue
    rw [Rule.trueBlock_seen hsees, if_pos htrueAt]
  have hhead : (q.trueBlock s.unit plains ++ [s]).head? =
      some ((q.trueBlock s.unit plains).head?.getD s) := by
    cases hfirst : (q.trueBlock s.unit plains).head? <;> simp [hfirst]
  have htime : ((q.trueBlock s.unit plains).head?.map (·.time)).getD s.time =
      ((q.trueBlock s.unit plains).head?.getD s).time := by
    cases (q.trueBlock s.unit plains).head? <;> rfl
  rw [hblock, hhead, htime]
  constructor
  · rintro ⟨span, hspan, hle⟩
    exact ⟨_, span, rfl, hspan, hle⟩
  · rintro ⟨first, span, hfirst, hspan, hle⟩
    obtain rfl := Option.some.inj hfirst
    exact ⟨span, hspan, hle⟩

/-- The sole rate rule, gated and without a prerequisite, gives a candidate at a call exactly if it
looks at the sample, its condition is true there, the time since the first sample of the block that
ends there reaches the duration, and the share in the window of that call reaches the percentage. Its
timer at a unit runs since the first sample of the block, which is a matter of the samples alone. -/
theorem sole_rate_rule_iff {n : Nat} (hn : n < calls.length) (hd : r.duration = some d)
    (hinstant : d.isInstant = false) (hpre : r.prerequisite = none)
    (hdated : ∀ c ∈ calls, c.sample.Dated)
    (heval : ∀ c ∈ calls, r.watches c.sample = true → ∃ b, r.holdsFor c.sample.value = .ok b)
    (hform : ∀ c ∈ calls, r.watches c.sample = true → ∃ h, History.ofSamples c.past = .ok h) :
    (∃ found, (calls[n].ask [r] (ratesAfter [r] calls (.empty durable) n)).1 = .ok found) ∧
      (∀ w, (calls[n].ask [r] (ratesAfter [r] calls (.empty durable) n)).1 = .ok (some w) ↔
        r.watches calls[n].sample = true ∧ r.holdsFor calls[n].sample.value = .ok true ∧
          (∃ first span, (r.trueBlock calls[n].sample.unit
              ((calls.take (n + 1)).map RateCall.plain)).head? = some first ∧
            d.span = .ok span ∧ span ≤ calls[n].sample.time - first.time) ∧
          ∃ st, r.Shares calls[n].past calls[n].now st ∧
            st.percent.lt r.thresholdPercent = false ∧
            w = .ofSample calls[n].sample (.rate r) (some st)) ∧
      ∀ unit key, r.timerKey unit = .ok key →
        (ratesAfter [r] calls (.empty durable) n).find? key =
          (r.trueBlock unit ((calls.take n).map RateCall.plain)).head?.map fun s =>
            (Timers.empty durable).kept (.utc s.time) := by
  have hg : r.gated = true := Rule.gated_iff.mpr ⟨d, hd, hinstant⟩
  have hmem : calls[n] ∈ calls := List.getElem_mem hn
  have htimers (unit : String) (key : TimerKey) (hk : r.timerKey unit = .ok key) :=
    @find?_ratesAfter_sole r calls durable hg hpre hdated heval hform unit key hk n (Nat.le_of_lt hn)
  refine ⟨?_, ?_, htimers⟩
  · cases hw : r.watches calls[n].sample with
    | false => exact ⟨none, by rw [RateCall.ask_unwatched hw]⟩
    | true =>
      obtain ⟨h, hh⟩ := hform calls[n] hmem hw
      exact (RateCall.ask_watched hw hh).2.1
  · intro w
    cases hw : r.watches calls[n].sample with
    | false =>
      rw [RateCall.ask_unwatched hw]
      simp
    | true =>
      obtain ⟨h, hh⟩ := hform calls[n] hmem hw
      have hfind : ∀ key, r.timerKey calls[n].sample.unit = .ok key →
          (ratesAfter [r] calls (.empty durable) n).find? key =
            (r.trueBlock calls[n].sample.unit ((calls.take n).map RateCall.plain)).head?.map fun x =>
              (ratesAfter [r] calls (.empty durable) n).kept (.utc x.time) := by
        intro key hk
        rw [htimers _ key hk, ratesAfter_eq_recordsAfter hg hpre heval hform]
        simp only [recordsAfter_kept]
      have hreliable : (ratesAfter [r] calls (.empty durable) n).Reliable := by
        rw [ratesAfter_eq_recordsAfter hg hpre heval hform]
        exact recordsAfter_reliable (Timers.empty_reliable durable) n
      have hblock := @Rule.verdict_after_block d r.toRule _ calls[n].sample calls[n].related _ hd hinstant
        hpre hw (hdated _ hmem) (heval _ hmem hw) hreliable hfind
      have hgate := (@RateRule.gate_eq_verdict r calls[n].sample calls[n].related
        (ratesAfter [r] calls (.empty durable) n) hg hpre (heval _ hmem hw)).2
      rw [List.take_succ_eq_append_getElem hn, List.map_append, (RateCall.ask_watched hw hh).2.2]
      simp only [RateRule.verdict_some_iff hpre, hgate, hblock, RateRule.share_eq_some_iff hh, true_and]
      constructor
      · rintro ⟨st, ⟨⟨htrue, hlasted⟩, hshares, hreaches⟩, rfl⟩
        exact ⟨htrue, hlasted, st, hshares, hreaches, rfl⟩
      · rintro ⟨htrue, hlasted, st, hshares, hreaches, rfl⟩
        exact ⟨st, ⟨⟨htrue, hlasted⟩, hshares, hreaches⟩, rfl⟩

end Sole

/-- Half of the readings of the last hour are to be one, and the reading for ten minutes. -/
def RateRule.halfOnes : RateRule :=
  { Rule.reads "Tag1" 1 10 with thresholdPercent := Double.ofNat 50, window := some (Double.ofNat 1) }

/-- So many minutes after the first hour, on these readings of the past. -/
def RateCall.atMinute (minutes : Nat) (past : List Int) : RateCall :=
  ⟨.reading "Tag1" 1 (60 + minutes), [], past.map fun n => .reading "Tag1" n 60,
    (60 + minutes : Nat) * 60000000⟩

/-- There are no readings of the past at the first call, and too few ones at the second. -/
theorem halfOnes_at_tenth_minute :
    let calls := [RateCall.atMinute 0 [], .atMinute 5 [0, 0, 1], .atMinute 10 [0, 1]]
    (calls[2].ask [.halfOnes] (ratesAfter [.halfOnes] calls (.empty true) 2)).1 =
      .ok (some (.ofSample (.reading "Tag1" 1 70) (.rate .halfOnes) (some (.ofCounts 1 2)))) := by
  intro calls
  have heval : ∀ c ∈ calls, RateRule.halfOnes.watches c.sample = true →
      ∃ b, RateRule.halfOnes.holdsFor c.sample.value = .ok b := by
    have hread : ∀ c ∈ calls, RateRule.halfOnes.holdsFor c.sample.value = .ok true := by decide +kernel
    exact fun c hc _ => ⟨true, hread c hc⟩
  have hform : ∀ c ∈ calls, RateRule.halfOnes.watches c.sample = true →
      ∃ h, History.ofSamples c.past = .ok h := by
    have hformed : ∀ c ∈ calls, (History.ofSamples c.past).toBool = true := by decide +kernel
    intro c hc _
    cases hh : History.ofSamples c.past with
    | error e => simpa [hh, Except.toBool] using hformed c hc
    | ok h => exact ⟨h, rfl⟩
  have hstart : ((RateRule.halfOnes.trueBlock "101" (calls.map RateCall.plain)).head?.map (·.time)) =
      some 3600000000 := by decide +kernel
  obtain ⟨first, hfirst, htime⟩ := Option.map_eq_some_iff.mp hstart
  obtain ⟨h, hh⟩ := hform calls[2] (by simp [calls]) (by decide +kernel)
  have hshare : RateRule.halfOnes.share h calls[2].now = .ok (some (.ofCounts 1 2)) := by
    have hgiven : (History.ofSamples calls[2].past).bind
        (RateRule.halfOnes.share · calls[2].now) = .ok (some (.ofCounts 1 2)) := by decide +kernel
    rwa [hh, Except.bind] at hgiven
  obtain ⟨hshares, hreaches⟩ := (RateRule.share_eq_some_iff hh).mp hshare
  have hlasted : (600000000 : Span) ≤ calls[2].sample.time - first.time := by
    rw [htime]
    decide
  have htrue : RateRule.halfOnes.holdsFor calls[2].sample.value = .ok true := by decide +kernel
  have hspan : Duration.span ⟨Double.ofNat 10, .minute, .continuous⟩ = .ok 600000000 := by
    decide +kernel
  exact ((@sole_rate_rule_iff .halfOnes calls _ true 2 (by decide) rfl (by decide +kernel) rfl
    (by decide) heval hform).2.1 _).mpr
    ⟨by decide +kernel, htrue, ⟨first, _, hfirst, hspan, hlasted⟩, _, hshares, hreaches, rfl⟩

end FaultDesk
