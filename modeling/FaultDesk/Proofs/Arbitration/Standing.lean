import FaultDesk.Proofs.Arbitration.Recovery

/-!
Which rules stand at the end of a batch. A rule stands at its latest sample when its condition is
true there and, unless nothing has to be waited for, has been true long enough; since when is told
by the run of true samples and by the record on entry. Where nothing fails, arbitration finds the
first standing rule of the first priority, or else all standing rules.
-/

namespace FaultDesk

/-! ## Reading a record -/

namespace Timers

variable {t u : Timers} {key : TimerKey}

/-- A record of a key is read as a stamp that says how far it is from UTC. -/
def Zoned (t : Timers) (key : TimerKey) : Prop :=
  ∀ s, t.find? key = some s → (t.recalled s).offset ≠ none

theorem zoned_of_durable (h : t.durable = true) (key : TimerKey) : t.Zoned key := by
  intro s _
  simp [recalled, h]

theorem recalled_zoned {s : Stamp} (hs : (t.recalled s).offset ≠ none) :
    t.recalled s = ⟨s.wall, some (s.offset.getD 0)⟩ := by
  unfold recalled at hs ⊢
  split
  next => rfl
  next hd =>
    rw [if_neg hd] at hs
    obtain ⟨wall, offset⟩ := s
    obtain ⟨o, rfl⟩ := Option.ne_none_iff_exists'.mp hs
    rfl

theorem lasted_of_offset {d : Duration} {w : Span} {wall : Int} {o : Span} {j : Instant}
    (hj : 0 ≤ j ∧ j < Instant.limit) (hw : d.span = .ok w) :
    lasted d ⟨wall, some o⟩ (.utc j) = .ok (decide (w ≤ j - (wall - o))) := by
  have hspan : spanSince ⟨wall, some o⟩ (.utc j) = .ok (j - (wall - o)) := by
    simp [spanSince, Stamp.instant?_utc hj]
  unfold lasted
  rw [hspan, hw]
  rfl

/-- Asking a timer judges by the instant since when it has run, or else by the one it starts at. -/
theorem Reliable.sustained_zoned {d : Duration} {w : Span} {i j : Instant} (hr : t.Reliable)
    (hz : t.Zoned key) (hinstant : d.isInstant = false) (hw : d.span = .ok w)
    (hi : 0 ≤ i ∧ i < Instant.limit) (hj : 0 ≤ j ∧ j < Instant.limit) :
    (t.sustained key (some d) (.utc j) (some (.utc i))).1 =
        .ok (decide (w ≤ j - (t.start? key).getD i)) ∧
      (t.sustained key (some d) (.utc j) (some (.utc i))).2.find? key =
        some ((t.find? key).getD (t.kept (.utc i))) := by
  cases hf : t.find? key with
  | some s =>
    rw [hr.sustained_running hf hinstant, recalled_zoned (hz s hf), lasted_of_offset hj hw]
    simp [start?, hf]
  | none =>
    have hsince : ((some (Stamp.utc i)).getD (.utc j)).instant? = some i := Stamp.instant?_utc hi
    rw [hr.sustained_fresh hf hinstant hsince, Stamp.utc, lasted_of_offset hj hw]
    refine ⟨by simp [start?, hf], ?_⟩
    rw [find?_written, if_pos rfl]
    rfl

end Timers

/-! ## One rule -/

namespace MasterRule

variable {r : MasterRule} {unit : String} {samples : List Sample} {t u : Timers} {key : TimerKey}
  {d : Duration} {w : Span} {latest : Sample} {m : MasterMatch}

/-- Nothing fails when a rule is judged on the samples of a unit. -/
structure Evaluable (r : MasterRule) (unit : String) (samples : List Sample) (t : Timers) : Prop where
  values : ∀ s ∈ samples, r.concerns s = true → ∃ b, r.holdsAt s.value = .ok b
  key : ∃ key, r.timerKey unit = .ok key
  span : ∀ d, r.duration = some d → d.isInstant = false → ∃ w, d.span = .ok w
  zoned : ∀ key, r.timerKey unit = .ok key → t.Zoned key

/-- Since when a rule counts its condition as true that is true on a block of samples: from the first
of them if the condition was false before or nothing is recorded, else from what is recorded. -/
def countsFrom (r : MasterRule) (samples : List Sample) (recorded : Option Instant)
    (first : Sample) : Instant :=
  if (r.relevant samples).all r.trueAt then recorded.getD first.time else first.time

/-- A rule stands at its latest sample. -/
structure Stands (r : MasterRule) (unit : String) (samples : List Sample) (t : Timers)
    (latest : Sample) : Prop where
  enabled : r.enabled = true
  last : (r.relevant samples).getLast? = some latest
  holds : r.trueAt latest = true
  lasted : r.gated = true → latest.kind ≠ .computed → ∃ key first d w,
    r.timerKey unit = .ok key ∧ (r.trailing samples).head? = some first ∧ r.duration = some d ∧
      d.span = .ok w ∧ w ≤ latest.time - r.countsFrom samples (t.start? key) first

theorem mem_relevant {s : Sample} :
    s ∈ r.relevant samples ↔ s ∈ samples ∧ r.concerns s = true := by
  simp [relevant, Sample.sorted]

theorem mem_trailing {s : Sample} (h : s ∈ r.trailing samples) :
    s ∈ samples ∧ r.concerns s = true :=
  mem_relevant.mp ((List.rtakeWhile_suffix _ _).subset h)

theorem Evaluable.find_ok (he : r.Evaluable unit samples t) :
    ActiveRun.find r samples = .ok (ActiveRun.ofSeen r (r.relevant samples)) := by
  refine ActiveRun.find_ok_iff.mpr ⟨?_, rfl⟩
  intro s hs
  obtain ⟨hmem, hc⟩ := mem_relevant.mp hs
  exact he.values s hmem hc

theorem getLast?_trailing (h : (r.trailing samples).getLast? = some latest) :
    (r.relevant samples).getLast? = some latest ∧ r.trueAt latest = true := by
  have htrue := List.mem_rtakeWhile_imp (List.mem_of_getLast? h)
  obtain ⟨before, hsplit⟩ := List.rtakeWhile_suffix r.trueAt (r.relevant samples)
  change before ++ r.trailing samples = _ at hsplit
  refine ⟨?_, htrue⟩
  rw [← hsplit, List.getLast?_append, h]
  rfl

theorem interrupted_eq {run : ActiveRun} (hrun : ActiveRun.find r samples = .ok (some run)) :
    run.interrupted = !(r.relevant samples).all r.trueAt := by
  obtain ⟨-, -, hinterrupted⟩ := ActiveRun.find_some hrun
  rw [Bool.eq_iff_iff, hinterrupted]
  simp

theorem trailing_ne_nil (hlast : (r.relevant samples).getLast? = some latest)
    (hholds : r.trueAt latest = true) : r.trailing samples ≠ [] := by
  intro hnil
  have hne : r.relevant samples ≠ [] := by
    intro h
    rw [h] at hlast
    cases hlast
  rw [List.getLast?_eq_some_getLast hne] at hlast
  have hfalse := List.rtakeWhile_eq_nil_iff.mp hnil hne
  rw [Option.some.inj hlast] at hfalse
  exact hfalse hholds

theorem ripe_reading {run : ActiveRun} (hr : t.Reliable) (hz : t.Zoned key)
    (hd : r.duration = some d) (hinstant : d.isInstant = false) (hw : d.span = .ok w)
    (hread : run.latest.kind ≠ .computed) (hfirst : run.first.Dated) (hlatest : run.latest.Dated) :
    (r.ripe key run t).1 = .ok (decide (w ≤ run.latest.time -
        if run.interrupted then run.first.time else (t.start? key).getD run.first.time)) ∧
      (r.ripe key run t).2.find? key =
        some (if run.interrupted then t.kept (.utc run.first.time)
          else (t.find? key).getD (t.kept (.utc run.first.time))) := by
  have hg : r.gated = true := Rule.gated_iff.mpr ⟨d, hd, hinstant⟩
  have hasks : ¬ (run.latest.kind = .computed ∨ (!r.gated) = true) := by simp [hread, hg]
  rw [ripe, if_neg hasks, hd]
  cases hi : run.interrupted with
  | false =>
    simpa [hi] using hr.sustained_zoned hz hinstant hw hfirst hlatest
  | true =>
    have hnone : (t.clear key).find? key = none := by rw [hr.find?_clear, if_pos rfl]
    have hcleared : (t.clear key).Zoned key := by
      intro s hs
      rw [hnone] at hs
      cases hs
    have hkept : (t.clear key).kept = t.kept :=
      funext fun s => Timers.kept_congr (t.clear_moves key).durable_eq s
    have hasked := ((t.clear_moves key).reliable hr).sustained_zoned hcleared hinstant hw hfirst
      hlatest
    simpa [Timers.start?, hi, hnone, hkept] using hasked

/-- A run that the rule has found is ripe if and only if the rule has waited long enough. -/
theorem ripe_iff {run : ActiveRun} (hr : t.Reliable) (he : r.Evaluable unit samples t)
    (hdated : ∀ s ∈ samples, s.Dated) (hk : r.timerKey unit = .ok key)
    (hrun : ActiveRun.find r samples = .ok (some run)) :
    ∃ b, (r.ripe key run t).1 = .ok b ∧
      (b = true ↔ (r.gated = true → run.latest.kind ≠ .computed → ∃ key first d w,
        r.timerKey unit = .ok key ∧ (r.trailing samples).head? = some first ∧
          r.duration = some d ∧ d.span = .ok w ∧
            w ≤ run.latest.time - r.countsFrom samples (t.start? key) first)) := by
  obtain ⟨hfirst, hlatest, -⟩ := ActiveRun.find_some hrun
  by_cases hwaits : r.gated = true ∧ run.latest.kind ≠ .computed
  · obtain ⟨hg, hread⟩ := hwaits
    obtain ⟨d, hd, hinstant⟩ := Rule.gated_iff.mp hg
    obtain ⟨w, hw⟩ := he.span d hd hinstant
    have hcounts : (if run.interrupted then run.first.time
        else (t.start? key).getD run.first.time) =
          r.countsFrom samples (t.start? key) run.first := by
      rw [interrupted_eq hrun, countsFrom]
      cases (r.relevant samples).all r.trueAt <;> rfl
    have hripe := (ripe_reading hr (he.zoned key hk) hd hinstant hw hread
      (hdated _ (mem_trailing (List.mem_of_mem_head? hfirst)).1)
      (hdated _ (mem_trailing (List.mem_of_getLast? hlatest)).1)).1
    rw [hcounts] at hripe
    refine ⟨_, hripe, ?_⟩
    rw [decide_eq_true_iff]
    constructor
    · intro hle _ _
      exact ⟨key, run.first, d, w, hk, hfirst, hd, hw, hle⟩
    · intro h
      obtain ⟨key', first', d', w', hk', hfirst', hd', hw', hle⟩ := h hg hread
      obtain rfl : key = key' := Except.ok.inj (hk.symm.trans hk')
      obtain rfl : run.first = first' := Option.some.inj (hfirst.symm.trans hfirst')
      obtain rfl : d = d' := Option.some.inj (hd.symm.trans hd')
      obtain rfl : w = w' := Except.ok.inj (hw.symm.trans hw')
      exact hle
  · have hpasses : run.latest.kind = .computed ∨ (!r.gated) = true := by
      by_cases hc : run.latest.kind = .computed
      · exact Or.inl hc
      · exact Or.inr (by simpa [hc] using hwaits)
    rw [ripe, if_pos hpasses]
    refine ⟨true, rfl, ?_⟩
    simp only [true_iff]
    intro hg hread
    exact absurd ⟨hg, hread⟩ hwaits

/-- What a rule finds in the samples of a unit, if it is looked at and nothing fails. -/
def matchAt (r : MasterRule) (unit : String) (samples : List Sample) (t : Timers) :
    Option MasterMatch :=
  if r.enabled then (r.verdict unit samples t).1.toOption.join else none

/-- A rule finds a match exactly at the sample at which it stands. -/
theorem verdict_ok_iff (hr : t.Reliable) (he : r.Evaluable unit samples t)
    (hdated : ∀ s ∈ samples, s.Dated) (hon : r.enabled = true) :
    ∃ found, (r.verdict unit samples t).1 = .ok found ∧
      ∀ m, found = some m ↔ m.rule = r ∧ r.Stands unit samples t m.sample := by
  obtain ⟨key, hk⟩ := he.key
  cases hrun : ActiveRun.find r samples with
  | error e =>
    rw [he.find_ok] at hrun
    cases hrun
  | ok out =>
    cases out with
    | none =>
      refine ⟨none, by simp [verdict, hk, hrun], ?_⟩
      intro m
      simp only [reduceCtorEq, false_iff, not_and]
      intro _ hs
      exact trailing_ne_nil hs.last hs.holds (ActiveRun.find_none hrun)
    | some run =>
      obtain ⟨-, hlatest, -⟩ := ActiveRun.find_some hrun
      obtain ⟨hlast, hholds⟩ := getLast?_trailing hlatest
      obtain ⟨b, hb, hiff⟩ := ripe_iff hr he hdated hk hrun
      have hverdict : (r.verdict unit samples t).1 =
          .ok (if b then some ⟨r, run.latest⟩ else none) := by
        unfold verdict
        rw [hk, hrun]
        dsimp only
        generalize r.ripe key run t = asked at hb ⊢
        obtain ⟨result, u⟩ := asked
        obtain rfl : result = .ok b := hb
        cases b <;> rfl
      refine ⟨_, hverdict, ?_⟩
      intro m
      cases b with
      | false =>
        simp only [Bool.false_eq_true, ↓reduceIte, reduceCtorEq, false_iff, not_and]
        intro _ hs
        obtain hsame : run.latest = m.sample := Option.some.inj (hlast.symm.trans hs.last)
        have hlasted := hs.lasted
        rw [← hsame] at hlasted
        exact absurd (hiff.mpr hlasted) (by decide)
      | true =>
        simp only [↓reduceIte, Option.some.injEq]
        constructor
        · rintro rfl
          exact ⟨rfl, hon, hlast, hholds, hiff.mp rfl⟩
        · rintro ⟨hrule, hs⟩
          have hsame : run.latest = m.sample := Option.some.inj (hlast.symm.trans hs.last)
          cases m
          simp_all

theorem matchAt_eq_some_iff (hr : t.Reliable)
    (he : r.enabled = true → r.Evaluable unit samples t) (hdated : ∀ s ∈ samples, s.Dated) :
    r.matchAt unit samples t = some m ↔ m.rule = r ∧ r.Stands unit samples t m.sample := by
  unfold matchAt
  by_cases hon : r.enabled = true
  · obtain ⟨found, hfound, hiff⟩ := verdict_ok_iff hr (he hon) hdated hon
    rw [if_pos hon, hfound]
    exact hiff m
  · rw [if_neg hon]
    simp only [reduceCtorEq, false_iff, not_and]
    intro _ hs
    exact hon hs.enabled

theorem Stands.congr (h : ∀ key, r.timerKey unit = .ok key → u.find? key = t.find? key)
    (hs : r.Stands unit samples t latest) : r.Stands unit samples u latest := by
  refine ⟨hs.enabled, hs.last, hs.holds, ?_⟩
  intro hg hread
  obtain ⟨key, first, d, w, hk, hfirst, hd, hw, hle⟩ := hs.lasted hg hread
  have hstart : u.start? key = t.start? key := by simp only [Timers.start?, h key hk]
  exact ⟨key, first, d, w, hk, hfirst, hd, hw, by rw [hstart]; exact hle⟩

theorem Evaluable.congr (hdurable : u.durable = t.durable)
    (h : ∀ key, r.timerKey unit = .ok key → u.find? key = t.find? key)
    (he : r.Evaluable unit samples t) : r.Evaluable unit samples u := by
  refine ⟨he.values, he.key, he.span, ?_⟩
  intro key hk s hs
  rw [h key hk] at hs
  rw [Timers.recalled_congr hdurable]
  exact he.zoned key hk s hs

/-- The verdict of a rule when other timers than its own have been asked before. -/
theorem verdict_eq_matchAt (hr : t.Reliable) (hu : u.Reliable) (hdurable : u.durable = t.durable)
    (h : ∀ key, r.timerKey unit = .ok key → u.find? key = t.find? key)
    (he : r.Evaluable unit samples t) (hdated : ∀ s ∈ samples, s.Dated) (hon : r.enabled = true) :
    (r.verdict unit samples u).1 = .ok (r.matchAt unit samples t) := by
  obtain ⟨found, hfound, hiff⟩ := verdict_ok_iff hu (he.congr hdurable h) hdated hon
  rw [hfound]
  congr 1
  refine Option.ext fun m => ?_
  rw [hiff m, matchAt_eq_some_iff hr (fun _ => he) hdated]
  constructor
  · rintro ⟨hrule, hs⟩
    exact ⟨hrule, hs.congr fun key hk => (h key hk).symm⟩
  · rintro ⟨hrule, hs⟩
    exact ⟨hrule, hs.congr h⟩

end MasterRule

/-! ## All rules -/

/-- What comes of the matches of all rules, in order: the first of the first priority alone, or else
all of them. -/
def Arbitration.ofMatches (ms : List MasterMatch) : Arbitration :=
  match ms.find? (·.rule.isBlocking) with
  | some m => ⟨some m, []⟩
  | none => ⟨none, ms⟩

/-- The matches of a list of rules where nothing fails. -/
def standing (unit : String) (samples : List Sample) (rules : List MasterRule) (t : Timers) :
    List MasterMatch := rules.filterMap (·.matchAt unit samples t)

variable {unit : String} {samples : List Sample} {t : Timers}

theorem standing_cons (r : MasterRule) (rest : List MasterRule) :
    standing unit samples (r :: rest) t =
      (r.matchAt unit samples t).toList ++ standing unit samples rest t := by
  cases h : r.matchAt unit samples t with
  | none => simp [standing, h]
  | some m => simp [standing, h]

/-- Arbitration that goes on with a list of rules, none of whose timers has been asked yet. -/
theorem arbitrateFrom_ok {rules : List MasterRule} {collected : List MasterMatch} {u : Timers}
    (hr : t.Reliable) (hu : u.Reliable) (hdurable : u.durable = t.durable)
    (hkeys : DistinctKeys unit rules)
    (hkept : ∀ q ∈ rules, ∀ key, q.timerKey unit = .ok key → u.find? key = t.find? key)
    (he : ∀ q ∈ rules, q.enabled = true → q.Evaluable unit samples t)
    (hdated : ∀ s ∈ samples, s.Dated) (hcollected : ∀ m ∈ collected, m.rule.isBlocking = false) :
    (arbitrateFrom unit samples collected rules u).1 =
      .ok (.ofMatches (collected ++ standing unit samples rules t)) := by
  induction rules generalizing collected u with
  | nil =>
    have hnone : collected.find? (·.rule.isBlocking) = none := by
      simpa using hcollected
    simp [arbitrateFrom, Arbitration.ofMatches, standing, hnone]
  | cons r rest ih =>
    obtain ⟨hfirst, hdistinct⟩ := List.pairwise_cons.mp hkeys
    have herest : ∀ q ∈ rest, q.enabled = true → q.Evaluable unit samples t :=
      fun q hq => he q (List.mem_cons_of_mem r hq)
    have hkeptrest : ∀ q ∈ rest, ∀ key, q.timerKey unit = .ok key → u.find? key = t.find? key :=
      fun q hq => hkept q (List.mem_cons_of_mem r hq)
    cases hon : r.enabled with
    | false =>
      have hmatch : r.matchAt unit samples t = none := by simp [MasterRule.matchAt, hon]
      simp only [arbitrateFrom, hon, Bool.false_eq_true, ↓reduceIte, standing_cons, hmatch,
        Option.toList_none, List.nil_append]
      exact ih hu hdurable hdistinct hkeptrest herest hcollected
    | true =>
      have hverdict := MasterRule.verdict_eq_matchAt hr hu hdurable
        (hkept r List.mem_cons_self) (he r List.mem_cons_self hon) hdated hon
      have hmoves := r.verdict_moves unit samples u
      have hothers : ∀ q ∈ rest, ∀ key, q.timerKey unit = .ok key →
          (r.verdict unit samples u).2.find? key = t.find? key := by
        intro q hq key hk
        rw [hmoves.find?_other fun hrk => hfirst q hq key hrk hk]
        exact hkeptrest q hq key hk
      have hu' := hmoves.reliable hu
      have hdurable' := hmoves.durable_eq.trans hdurable
      simp only [arbitrateFrom, hon, ↓reduceIte]
      generalize r.verdict unit samples u = result at hverdict hothers hu' hdurable' ⊢
      obtain ⟨found, v⟩ := result
      dsimp only at hverdict hothers hu' hdurable'
      subst found
      cases hmatch : r.matchAt unit samples t with
      | none =>
        simp only [standing_cons, hmatch, Option.toList_none, List.nil_append]
        exact ih hu' hdurable' hdistinct hothers herest hcollected
      | some m =>
        have hrule : m.rule = r :=
          ((MasterRule.matchAt_eq_some_iff hr (he r List.mem_cons_self) hdated).mp hmatch).1
        simp only [standing_cons, hmatch, Option.toList_some, List.singleton_append]
        cases hblocks : r.isBlocking with
        | true =>
          have hskip : collected.find? (·.rule.isBlocking) = none := by simpa using hcollected
          simp [Arbitration.ofMatches, List.find?_append, hskip, hrule, hblocks]
        | false =>
          have hcollected' : ∀ x ∈ collected ++ [m], x.rule.isBlocking = false := by
            intro x hx
            rcases List.mem_append.mp hx with hmem | hmem
            · exact hcollected x hmem
            · rw [List.mem_singleton.mp hmem, hrule, hblocks]
          have hstep := ih hu' hdurable' hdistinct hothers herest hcollected'
          simpa [hblocks] using hstep

/-- Where nothing fails, arbitration finds what comes of the rules that stand. -/
theorem arbitrate_ok {rules : List MasterRule} (hr : t.Reliable) (hkeys : DistinctKeys unit rules)
    (he : ∀ q ∈ rules, q.enabled = true → q.Evaluable unit samples t)
    (hdated : ∀ s ∈ samples, s.Dated) :
    (arbitrate unit samples rules t).1 =
      .ok (.ofMatches (standing unit samples rules t)) := by
  have h := @arbitrateFrom_ok unit samples t rules [] t hr hr rfl hkeys (fun _ _ _ _ => rfl) he
    hdated (by simp)
  exact h

theorem evaluable_silent {r : MasterRule} {d : Duration} {w : Span} {key : TimerKey}
    (hvalues : ∀ s ∈ samples, (r.holdsAt s.value).isOk = true) (hk : r.timerKey "101" = .ok key)
    (hd : r.duration = some d) (hw : d.span = .ok w) : r.Evaluable "101" samples silent := by
  refine ⟨?_, ⟨key, hk⟩, ?_, fun key _ => Timers.zoned_of_durable rfl key⟩
  · intro s hs _
    have hok := hvalues s hs
    cases hv : r.holdsAt s.value with
    | ok b => exact ⟨b, rfl⟩
    | error e =>
      rw [hv] at hok
      cases hok
  · intro d' hd' _
    obtain rfl := Option.some.inj (hd.symm.trans hd')
    exact ⟨w, hw⟩

theorem silence_evaluable (h : ∀ s ∈ samples, (silence.holdsAt s.value).isOk = true) :
    silence.Evaluable "101" samples silent :=
  @evaluable_silent _ _ _ 1800000000 ⟨"101", "Tag8", "0"⟩ h (by decide +kernel) rfl
    (by decide +kernel)

end FaultDesk
