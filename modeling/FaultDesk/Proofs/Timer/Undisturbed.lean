import FaultDesk.Proofs.Timer.LeftOut

/-!
Which rules disturb each other. A timer is kept by unit, tag and threshold, so two rules share it if
they have one tag and thresholds with one text, whatever their conditions and kinds are. A rule that
shares its timer with no other can be left out where it matches nowhere: the others decide the same.
-/

namespace FaultDesk

open Timers

/-! ## Keys -/

/-- Two rules have one tag, and the texts of their thresholds in keys agree. -/
def Rule.SharesTimer (q r : Rule) : Prop :=
  q.tag = r.tag ∧ ∃ text, q.threshold.datum.normalText = .ok text ∧
    r.threshold.datum.normalText = .ok text

theorem Rule.timerKey_eq_ok_iff {r : Rule} {unit : String} {key : TimerKey} :
    r.timerKey unit = .ok key ↔
      ∃ text, r.threshold.datum.normalText = .ok text ∧ key = ⟨unit, r.tag, text⟩ := by
  unfold Rule.timerKey TimerKey.ofValues
  cases r.threshold.datum.normalText <;> simp [Except.map, Datum.shown, eq_comm]

/-- Rules that have a key in common share their timer at every unit. -/
theorem Rule.sharesTimer_iff {q r : Rule} (unit : String) :
    q.SharesTimer r ↔ ∃ key, q.timerKey unit = .ok key ∧ r.timerKey unit = .ok key := by
  simp only [Rule.timerKey_eq_ok_iff]
  constructor
  · rintro ⟨htag, text, hq, hr⟩
    exact ⟨⟨unit, q.tag, text⟩, ⟨text, hq, rfl⟩, text, hr, by rw [htag]⟩
  · rintro ⟨key, ⟨text, hq, rfl⟩, text', hr, hkey⟩
    obtain ⟨-, htag, rfl⟩ := TimerKey.mk.inj hkey
    exact ⟨htag, text, hq, hr⟩

/-! ## Rules of all kinds -/

/-- Rules of all kinds that ask one store of timers. -/
structure RuleBook where
  simple : List Rule
  rate : List RateRule
  masters : List MasterRule

/-- What is put to the rules of one kind: a sample with the related ones, for rate rules with past
readings, or all samples of a unit. -/
inductive Inquiry where
  | simple (s : Sample) (related : List Sample)
  | rate (s : Sample) (related past : List Sample) (now : Instant)
  | masters (unit : String) (samples : List Sample)

/-- What the rules of one kind decide. -/
inductive Decision where
  | simple (found : Option Rule)
  | rate (found : Option Candidate)
  | masters (found : Arbitration)

namespace Decision

/-- The rules that match. -/
def rules : Decision → List AnyRule
  | simple found => (found.map .simple).toList
  | rate found => (found.map (·.rule)).toList
  | masters a => (a.blocking.toList ++ a.collected).map fun m => .master m.rule

end Decision

namespace RuleBook

def rules (b : RuleBook) : List AnyRule :=
  b.simple.map .simple ++ b.rate.map .rate ++ b.masters.map .master

/-- The rules without one of them. -/
def without (b : RuleBook) (q : AnyRule) : RuleBook :=
  ⟨b.simple.filter fun r => decide (.simple r ≠ q), b.rate.filter fun r => decide (.rate r ≠ q),
    b.masters.filter fun r => decide (.master r ≠ q)⟩

/-- One rule alone. -/
def only : AnyRule → RuleBook
  | .simple r => ⟨[r], [], []⟩
  | .rate r => ⟨[], [r], []⟩
  | .master r => ⟨[], [], [r]⟩

def ask (b : RuleBook) : Inquiry → Timers → Except Failure Decision × Timers
  | .simple s related, t =>
    let (found, t) := firstMatch s related b.simple t
    (.ok (.simple (found.map (·.2))), t)
  | .rate s related past now, t =>
    let (found, t) := firstRate s related past now b.rate t
    (found.map .rate, t)
  | .masters unit samples, t =>
    let (found, t) := arbitrate unit samples b.masters t
    (found.map .masters, t)

end RuleBook

/-- The timers while their accesses fail in some way. -/
def Timers.failing (t : Timers) (outage : Nat → TimerAccess → Bool) : Timers :=
  { t with outage := outage }

/-- The decisions on one inquiry after another, each with the way accesses fail meanwhile. -/
def RuleBook.decisions (b : RuleBook) :
    List (Inquiry × (Nat → TimerAccess → Bool)) → Timers → List (Except Failure Decision)
  | [], _ => []
  | (inquiry, outage) :: rest, t =>
    (b.ask inquiry (t.failing outage)).1 ::
      b.decisions rest (b.ask inquiry (t.failing outage)).2

/-- Whether an access fails does not depend on the number of accesses made before. -/
def Steady (outage : Nat → TimerAccess → Bool) : Prop := ∀ m n what, outage m what = outage n what

/-! ## One inquiry -/

namespace RuleBook

variable {b : RuleBook} {q : AnyRule} {t u : Timers}

/-- The rules change timers of their own keys only. -/
theorem ask_moves (b : RuleBook) (inquiry : Inquiry) (t : Timers) :
    Moves (fun k => ∃ r ∈ b.rules, r.base.timerKey k.unit = .ok k) t (b.ask inquiry t).2 := by
  have hown {r : Rule} {unit : String} {key : TimerKey} (hk : r.timerKey unit = .ok key) :
      r.timerKey key.unit = .ok key := by rw [(Rule.timerKey_fields hk).1]; exact hk
  cases inquiry with
  | simple s related =>
    refine (firstMatch_moves s related b.simple t).mono ?_
    rintro key ⟨r, hr, -, hk⟩
    exact ⟨.simple r, by simp [rules, hr], hown hk⟩
  | rate s related past now =>
    unfold ask firstRate
    dsimp only
    split
    next =>
      cases History.ofSamples past with
      | error e => exact .refl t
      | ok h =>
        refine (rateFrom_moves (b.rate.filter fun r => r.watches s) t).mono ?_
        rintro key ⟨r, hr, hk⟩
        exact ⟨.rate r, by simp [rules, (List.mem_filter.mp hr).1], hown hk⟩
    next => exact .refl t
  | masters unit samples =>
    refine (arbitrateFrom_moves unit samples [] b.masters t).mono ?_
    rintro key ⟨r, hr, hk⟩
    exact ⟨.master r, by simp [rules, hr], hown hk⟩

/-- No other rule that waits shares the timer of a rule. -/
def Apart (b : RuleBook) (q : AnyRule) : Prop :=
  ∀ r ∈ b.rules, r ≠ q → r.base.gated = true → ¬ q.base.SharesTimer r.base

/-- The keys of other timers than that of a rule. -/
def Other (q : AnyRule) (key : TimerKey) : Prop := q.base.timerKey key.unit ≠ .ok key

/-- A rule that shares its timer with no other can be left out of the rules of its kind. -/
theorem Apart.parted (hapart : b.Apart q) {α : Type} (base : α → Rule) (lift : α → AnyRule)
    (hbase : ∀ r, (lift r).base = base r) (rules : List α) (hrules : ∀ r ∈ rules, lift r ∈ b.rules)
    (unit : String) : Parted base unit (Other q) (fun r => decide (lift r ≠ q)) rules := by
  constructor
  · intro r hr hkeep hg key hk hq
    refine hapart (lift r) (hrules r hr) (of_decide_eq_true hkeep) (by rw [hbase]; exact hg) ?_
    rw [(Rule.timerKey_fields hk).1] at hq
    exact (Rule.sharesTimer_iff unit).mpr ⟨key, hq, by rw [hbase]; exact hk⟩
  · intro r hr hleft key hk hother
    obtain rfl : lift r = q := by simpa using hleft
    refine hother ?_
    rw [hbase, (Rule.timerKey_fields hk).1]
    exact hk

theorem ok_of_map {α β : Type} {f : α → β} {x : Except Failure α} {y : β} (h : x.map f = .ok y) :
    ∃ a, x = .ok a ∧ f a = y := by
  cases x with
  | error e => cases h
  | ok a => exact ⟨a, rfl, Except.ok.inj h⟩

theorem simple_without (hapart : b.Apart q) (h : Alike (Other q) t u) {s : Sample}
    {related : List Sample} {found : Option Rule} {t' : Timers}
    (hok : b.ask (.simple s related) t = (.ok (.simple found), t'))
    (hnever : found.map .simple ≠ some q) :
    ∃ u', (b.without q).ask (.simple s related) u = (.ok (.simple found), u') ∧
      Alike (Other q) t' u' := by
  have hparts := hapart.parted id .simple (fun _ => rfl) b.simple
    (fun r hr => by simp [rules, hr]) s.unit
  obtain ⟨hd, rfl⟩ := Prod.mk.inj hok
  obtain rfl := Decision.simple.inj (Except.ok.inj hd)
  have hkept : ∀ p r, (matchFrom s related 0 b.simple t).1 = some (p, r) →
      decide (AnyRule.simple r ≠ q) = true := by
    intro p r hr
    refine decide_eq_true ?_
    rintro rfl
    exact hnever (by rw [hr]; rfl)
  obtain ⟨hfound, htimers⟩ := matchFrom_leftOut hparts h 0 0 hkept
  exact ⟨_, Prod.ext (congrArg (fun found => Except.ok (Decision.simple found)) hfound) rfl, htimers⟩

/-- Rate rules on past readings that can be put in form. -/
theorem firstRate_of_form {s : Sample} {related past : List Sample} {now : Instant}
    {rules : List RateRule} {h : History} (hform : History.ofSamples past = .ok h) :
    firstRate s related past now rules t =
      (.ok (firstRateIn s related h now rules t).1, (firstRateIn s related h now rules t).2) := by
  unfold firstRate
  split
  next => rw [hform]
  next hnone =>
    have hempty : rules.filter (fun r => r.watches s) = [] :=
      List.filter_eq_nil_iff.mpr fun r hr hw => hnone (List.any_eq_true.mpr ⟨r, hr, hw⟩)
    rw [firstRateIn, hempty]
    rfl

/-- Past readings that cannot be put in form are none of the concern of rules that do not watch the
sample. -/
theorem firstRate_of_no_form {s : Sample} {related past : List Sample} {now : Instant}
    {rules : List RateRule} {e : Failure} (hform : History.ofSamples past = .error e) :
    firstRate s related past now rules t =
      (if rules.any (fun r => r.watches s) then .error e else .ok none, t) := by
  unfold firstRate
  split
  next => rw [hform]
  next => rfl

theorem rate_without (hapart : b.Apart q) (h : Alike (Other q) t u) {s : Sample}
    {related past : List Sample} {now : Instant} {found : Option Candidate} {t' : Timers}
    (hok : b.ask (.rate s related past now) t = (.ok (.rate found), t'))
    (hnever : found.map (·.rule) ≠ some q) :
    ∃ u', (b.without q).ask (.rate s related past now) u = (.ok (.rate found), u') ∧
      Alike (Other q) t' u' := by
  have hparts := hapart.parted RateRule.toRule .rate (fun _ => rfl) b.rate
    (fun r hr => by simp [rules, hr]) s.unit
  cases hform : History.ofSamples past with
  | error e =>
    simp only [ask, without, firstRate_of_no_form hform] at hok ⊢
    cases hany : b.rate.any (fun r => r.watches s) with
    | true =>
      rw [hany] at hok
      cases (Prod.mk.inj hok).1
    | false =>
      have hnone : ((b.rate.filter fun r => decide (AnyRule.rate r ≠ q)).any
          fun r => r.watches s) = false := by
        rw [List.any_eq_false] at hany ⊢
        exact fun r hr => hany r (List.mem_filter.mp hr).1
      rw [hany] at hok
      obtain ⟨hd, rfl⟩ := Prod.mk.inj hok
      obtain rfl := Decision.rate.inj (Except.ok.inj hd)
      rw [hnone]
      exact ⟨u, rfl, h⟩
  | ok past' =>
    simp only [ask, without, firstRate_of_form hform] at hok ⊢
    obtain ⟨hd, rfl⟩ := Prod.mk.inj hok
    obtain rfl := Decision.rate.inj (Except.ok.inj hd)
    have hkept : ∀ c r, (firstRateIn s related past' now b.rate t).1 = some c → c.rule = .rate r →
        decide (AnyRule.rate r ≠ q) = true := by
      intro c r hc hr
      refine decide_eq_true ?_
      rintro rfl
      exact hnever (by rw [hc, ← hr]; rfl)
    obtain ⟨hresult, htimers⟩ := firstRateIn_leftOut hparts h hkept
    rw [hresult]
    exact ⟨_, rfl, htimers⟩

theorem masters_without (hapart : b.Apart q) (h : Alike (Other q) t u) {unit : String}
    {samples : List Sample} {a : Arbitration} {t' : Timers}
    (hok : b.ask (.masters unit samples) t = (.ok (.masters a), t'))
    (hnever : ∀ m, a.blocking = some m ∨ m ∈ a.collected → AnyRule.master m.rule ≠ q) :
    ∃ u', (b.without q).ask (.masters unit samples) u = (.ok (.masters a), u') ∧
      Alike (Other q) t' u' := by
  have hparts := hapart.parted MasterRule.toRule .master (fun _ => rfl) b.masters
    (fun r hr => by simp [rules, hr]) unit
  have hkept : ∀ m, a.blocking = some m ∨ m ∈ a.collected →
      decide (AnyRule.master m.rule ≠ q) = true := fun m hm => decide_eq_true (hnever m hm)
  have ha : arbitrateFrom unit samples [] b.masters t = (.ok a, t') := by
    obtain ⟨a', hresult, hd⟩ := ok_of_map (congrArg Prod.fst hok)
    obtain rfl := Decision.masters.inj hd
    have ht : (b.ask (.masters unit samples) t).2 = t' := congrArg Prod.snd hok
    exact Prod.ext hresult ht
  obtain ⟨u', hu, h'⟩ := arbitrateFrom_leftOut hparts h ha fun m hm => hkept m (Or.inl hm)
  rw [List.filter_nil, List.filter_eq_self.mpr fun m hm => hkept m (Or.inr hm)] at hu
  refine ⟨u', ?_, h'⟩
  simp only [ask, without, arbitrate, hu]
  rfl

/-- The decision on one inquiry is the same without a rule that does not match. -/
theorem ask_without (hapart : b.Apart q) (h : Alike (Other q) t u) {inquiry : Inquiry} {d : Decision}
    {t' : Timers} (hok : b.ask inquiry t = (.ok d, t')) (hnever : q ∉ d.rules) :
    ∃ u', (b.without q).ask inquiry u = (.ok d, u') ∧ Alike (Other q) t' u' := by
  have hd := congrArg Prod.fst hok
  cases inquiry with
  | simple s related =>
    obtain rfl := Except.ok.inj hd
    exact simple_without hapart h hok (by simpa [Decision.rules, eq_comm] using hnever)
  | rate s related past now =>
    obtain ⟨found, -, rfl⟩ := ok_of_map hd
    exact rate_without hapart h hok (by simpa [Decision.rules, eq_comm] using hnever)
  | masters unit samples =>
    obtain ⟨a, -, rfl⟩ := ok_of_map hd
    refine masters_without hapart h hok ?_
    intro m hm he
    refine hnever (List.mem_map.mpr ⟨m, ?_, he⟩)
    simpa [Option.mem_toList] using hm

/-! ## One inquiry after another -/

theorem failing_alike {outage : Nat → TimerAccess → Bool} (hsteady : Steady outage)
    (hdurable : u.durable = t.durable) (hpresent : u.present = t.present)
    (hfind : ∀ key, Other q key → u.find? key = t.find? key) :
    Alike (Other q) (t.failing outage) (u.failing outage) :=
  ⟨hdurable, hpresent, hsteady, hfind⟩

theorem decisions_without_from (hapart : b.Apart q)
    {steps : List (Inquiry × (Nat → TimerAccess → Bool))} (hsteady : ∀ p ∈ steps, Steady p.2)
    (hdurable : u.durable = t.durable) (hpresent : u.present = t.present)
    (hfind : ∀ key, Other q key → u.find? key = t.find? key)
    (hnever : ∀ a ∈ b.decisions steps t, ∃ d, a = .ok d ∧ q ∉ d.rules) :
    (b.without q).decisions steps u = b.decisions steps t := by
  induction steps generalizing t u with
  | nil => rfl
  | cons p rest ih =>
    obtain ⟨inquiry, outage⟩ := p
    have halike := failing_alike (hsteady _ List.mem_cons_self) hdurable hpresent hfind
    obtain ⟨d, hd, hq⟩ := hnever _ List.mem_cons_self
    obtain ⟨u', hu, h'⟩ := ask_without hapart halike (Prod.ext hd rfl) hq
    simp only [decisions, hu, hd]
    congr 1
    exact ih (fun p hp => hsteady p (List.mem_cons_of_mem _ hp)) h'.durable h'.present h'.find?
      fun a ha => hnever a (List.mem_cons_of_mem _ ha)

/-- A rule that shares its timer with no other rule that waits leaves their timers alone, whatever
it is asked and however accesses fail. Where it matches nowhere, no decision is an error and whether
an access fails does not depend on those made before, all decisions are the same without it. -/
theorem undisturbed_by (hapart : b.Apart q) :
    (∀ r ∈ b.rules, r ≠ q → r.base.gated = true → ∀ unit key, r.base.timerKey unit = .ok key →
      ∀ inquiry t, ((only q).ask inquiry t).2.find? key = t.find? key) ∧
    ∀ steps t, (∀ p ∈ steps, Steady p.2) →
      (∀ a ∈ b.decisions steps t, ∃ d, a = .ok d ∧ q ∉ d.rules) →
        (b.without q).decisions steps t = b.decisions steps t := by
  constructor
  · intro r hr hne hg unit key hk inquiry t
    refine (ask_moves (only q) inquiry t).find?_other ?_
    rintro ⟨q', hq', hkey⟩
    obtain rfl : q' = q := by cases q <;> simpa [only, rules] using hq'
    rw [(Rule.timerKey_fields hk).1] at hkey
    exact hapart r hr hne hg ((Rule.sharesTimer_iff unit).mpr ⟨key, hkey, hk⟩)
  · intro steps t hsteady hnever
    exact decisions_without_from hapart hsteady rfl rfl (fun _ _ => rfl) hnever

/-! ## A limit from both sides -/

/-- Readings above or below a limit that last for ten minutes. -/
def limitRule (condition : Condition) (limit : Int) : Rule :=
  { Rule.reads "Tag1" limit 10 with condition := condition }

/-- A reading of seven, and again ten minutes later. -/
def seven (outage : Nat → TimerAccess → Bool) : List (Inquiry × (Nat → TimerAccess → Bool)) :=
  [(.simple (.reading "Tag1" 7 0) [], outage), (.simple (.reading "Tag1" 7 10) [], outage)]

/-- The rules that match, decision by decision. -/
def matching (b : RuleBook) (steps : List (Inquiry × (Nat → TimerAccess → Bool))) (t : Timers) :
    List (Option (List AnyRule)) :=
  (b.decisions steps t).map fun a => a.toOption.map Decision.rules

theorem never_of_matching {steps : List (Inquiry × (Nat → TimerAccess → Bool))}
    (h : ∀ m ∈ b.matching steps t, ∃ found, m = some found ∧ q ∉ found) :
    ∀ a ∈ b.decisions steps t, ∃ d, a = .ok d ∧ q ∉ d.rules := by
  intro a ha
  obtain ⟨found, hfound, hq⟩ := h _ (List.mem_map_of_mem ha)
  cases a with
  | error e => cases hfound
  | ok d =>
    obtain rfl := Option.some.inj hfound
    exact ⟨d, rfl, hq⟩

/-- No access fails. -/
def undisrupted : Nat → TimerAccess → Bool := fun _ _ => false

/-- Each reading starts the timer of the upper limit, and the lower limit drops it: they share it. A
rule that shares its timer with a third one has its part in what is decided on the others. And where
the fourth access fails, it matters who makes it. -/
theorem limits_disturb_each_other :
    let upper := limitRule .gt 5
    let lower := limitRule .lt 5
    let higher := limitRule .gt 6
    let key : TimerKey := ⟨"101", "Tag1", "5"⟩
    let running := (Timers.empty false).written key (.utc 0)
    let fourth : Nat → TimerAccess → Bool := fun n _ => n == 3
    (upper.timerKey "101" = .ok key ∧ running.find? key = some (.utc 0) ∧
      ((only (.simple lower)).ask (.simple (.reading "Tag1" 7 10) []) running).2.find? key = none) ∧
    (matching ⟨[upper, lower], [], []⟩ (seven undisrupted) (.empty false) = [some [], some []] ∧
      matching (without ⟨[upper, lower], [], []⟩ (.simple lower)) (seven undisrupted)
        (.empty false) = [some [], some [.simple upper]]) ∧
    (matching ⟨[upper, lower, higher], [], []⟩ (seven undisrupted) (.empty false) =
        [some [], some [.simple higher]] ∧
      matching (without ⟨[upper, lower, higher], [], []⟩ (.simple lower)) (seven undisrupted)
        (.empty false) = [some [], some [.simple upper]]) ∧
    matching ⟨[upper, limitRule .gt 9], [], []⟩ (seven fourth) (.empty false) =
        [some [], some []] ∧
      matching (without ⟨[upper, limitRule .gt 9], [], []⟩ (.simple (limitRule .gt 9)))
        (seven fourth) (.empty false) = [some [], some [.simple upper]] := by
  decide +kernel

/-- Two upper limits, a rate rule and a master rule. -/
def limits : RuleBook :=
  ⟨[limitRule .gt 5, limitRule .gt 9], [⟨.reads "Tag3" 0 20, Double.ofNat 50, none⟩], [silence]⟩

/-- The greater limit is not reached, and nothing changes without it. -/
theorem upper_limit_undisturbed :
    (∀ inquiry t, ((only (.simple (limitRule .gt 9))).ask inquiry t).2.find? ⟨"101", "Tag1", "5"⟩ =
        t.find? ⟨"101", "Tag1", "5"⟩) ∧
      (limits.without (.simple (limitRule .gt 9))).decisions (seven undisrupted) (.empty false) =
        limits.decisions (seven undisrupted) (.empty false) := by
  have hnine : (limitRule .gt 9).threshold.datum.normalText = .ok "9" := by decide +kernel
  have hfive : (limitRule .gt 5).threshold.datum.normalText = .ok "5" := by decide +kernel
  have hapart : limits.Apart (.simple (limitRule .gt 9)) := by
    intro r hr hne _
    simp only [rules, limits, List.map_cons, List.map_nil, List.cons_append, List.nil_append,
      List.mem_cons, List.not_mem_nil, or_false] at hr
    rintro ⟨htag, text, hq, hother⟩
    rcases hr with rfl | rfl | rfl | rfl
    · obtain rfl := Except.ok.inj (hnine.symm.trans hq)
      exact absurd (Except.ok.inj (hfive.symm.trans hother)) (by decide)
    · exact hne rfl
    · exact absurd htag (by decide)
    · exact absurd htag (by decide)
  obtain ⟨hkept, hsame⟩ := undisturbed_by hapart
  constructor
  · exact hkept (.simple (limitRule .gt 5)) (by decide +kernel) (by decide +kernel)
      (by decide +kernel) "101" _ (by decide +kernel)
  · refine hsame _ _ ?_ ?_
    · intro p hp
      simp only [seven, List.mem_cons, List.not_mem_nil, or_false] at hp
      rcases hp with rfl | rfl <;> exact fun _ _ _ => rfl
    · refine never_of_matching ?_
      have hmatching : limits.matching (seven undisrupted) (.empty false) =
          [some [], some [.simple (limitRule .gt 5)]] := by decide +kernel
      have hne : limitRule .gt 9 ≠ limitRule .gt 5 := by decide +kernel
      rw [hmatching]
      simp [hne]

end RuleBook

end FaultDesk
