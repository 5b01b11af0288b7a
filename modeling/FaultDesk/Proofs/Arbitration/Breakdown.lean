import FaultDesk.Proofs.Arbitration.Standing
import FaultDesk.Proofs.Matching.Refusals

/-!
When a master rule cannot be judged, and why. A failure of the timers is never a reason; a threshold
or a reading that has no number is one, a reading that has no text to be compared by is one, and so is a
time that cannot be compared with the duration.
The failure ends the arbitration at the first rule that is reached and cannot be judged.
-/

namespace FaultDesk

/-- A threshold is no container. -/
theorem Threshold.not_unwritable {x : Threshold} : ¬ x.datum.Unwritable := by
  rintro ⟨hint, hlong⟩
  cases x with
  | whole n => exact hint n rfl
  | _ => cases hlong

theorem Threshold.normalText_error_iff {x : Threshold} {e : Failure} :
    x.datum.normalText = .error e ↔ x.datum.Unreadable e := by
  rw [Datum.normalText_error_iff]
  exact or_iff_left fun h => not_unwritable h.1

theorem Rule.timerKey_error_iff {r : Rule} {unit : String} {e : Failure} :
    r.timerKey unit = .error e ↔ r.threshold.datum.Unreadable e := by
  rw [← Threshold.normalText_error_iff, timerKey, TimerKey.ofValues]
  cases r.threshold.datum.normalText <;> simp [Except.map]

/-! ## One rule -/

section First

variable {α : Type} (p q : α → Prop) {a : α} {rest : List α}

/-- The first entry that stops a search is the head, if the search does not get past it. -/
theorem exists_first_head (hp : ¬ p a) :
    (∃ before x after, a :: rest = before ++ x :: after ∧ (∀ y ∈ before, p y) ∧ q x) ↔ q a := by
  constructor
  · rintro ⟨before, x, after, hsplit, hbefore, hx⟩
    cases before with
    | nil =>
      obtain ⟨rfl, -⟩ := List.cons.inj hsplit
      exact hx
    | cons y before =>
      obtain ⟨rfl, -⟩ := List.cons.inj hsplit
      exact absurd (hbefore a List.mem_cons_self) hp
  · exact fun hq => ⟨[], a, rest, rfl, by simp, hq⟩

/-- The first entry that stops a search is behind the head, if the head does not stop it. -/
theorem exists_first_behind (hp : p a) (hq : ¬ q a) :
    (∃ before x after, a :: rest = before ++ x :: after ∧ (∀ y ∈ before, p y) ∧ q x) ↔
      ∃ before x after, rest = before ++ x :: after ∧ (∀ y ∈ before, p y) ∧ q x := by
  constructor
  · rintro ⟨before, x, after, hsplit, hbefore, hx⟩
    cases before with
    | nil =>
      obtain ⟨rfl, -⟩ := List.cons.inj hsplit
      exact absurd hx hq
    | cons y before =>
      obtain ⟨-, hrest⟩ := List.cons.inj hsplit
      exact ⟨before, x, after, hrest, fun z hz => hbefore z (List.mem_cons_of_mem y hz), hx⟩
  · rintro ⟨before, x, after, hsplit, hbefore, hx⟩
    refine ⟨a :: before, x, after, by rw [hsplit]; rfl, ?_, hx⟩
    intro z hz
    rcases List.mem_cons.mp hz with rfl | hz
    · exact hp
    · exact hbefore z hz

end First

theorem ActiveRun.follow_error_iff {r : MasterRule} {run : Option (Sample × Sample)}
    {interrupted : Bool} {rest : List Sample} {e : Failure} :
    follow r run interrupted rest = .error e ↔
      ∃ before s after, rest.filter r.concerns = before ++ s :: after ∧
        (∀ x ∈ before, ∃ b, r.holdsAt x.value = .ok b) ∧ r.holdsAt s.value = .error e := by
  induction rest generalizing run interrupted with
  | nil => simp [follow]
  | cons s rest ih =>
    cases hc : r.concerns s with
    | false => simpa [follow, hc] using ih
    | true =>
      rw [List.filter_cons_of_pos hc]
      simp only [follow, hc, ↓reduceIte]
      cases hv : r.holdsAt s.value with
      | error e' =>
        have hstops : ¬ ∃ b, r.holdsAt s.value = .ok b := by simp [hv]
        rw [exists_first_head (fun x : Sample => ∃ b, r.holdsAt x.value = .ok b)
          (fun x => r.holdsAt x.value = .error e) hstops, hv]
        simp only [Except.error.injEq]
      | ok b =>
        have hpasses : ¬ r.holdsAt s.value = .error e := by simp [hv]
        rw [exists_first_behind (fun x : Sample => ∃ b, r.holdsAt x.value = .ok b)
          (fun x => r.holdsAt x.value = .error e) ⟨b, hv⟩ hpasses]
        cases b with
        | false => exact ih
        | true => exact ih

namespace MasterRule

variable {r : MasterRule} {unit : String} {samples : List Sample} {t u : Timers} {key : TimerKey}
  {e : Failure}

/-- A reading that the rule would compare by its text, which it has not. -/
def Unreached (r : MasterRule) (v : Datum) : Prop :=
  (r.condition = .equals ∨ r.condition = .neq) ∧ v.Unwritable

/-- A condition whose threshold has a number fails only at values that have none, or no text to be
compared by. -/
theorem holdsAt_error_iff {v : Datum} (hr : r.threshold.datum.Readable) :
    r.holdsAt v = .error e ↔ v.Unreadable e ∨ r.Unreached v ∧ e = .tooManyDigits := by
  unfold holdsAt
  split
  next heq =>
    have hunreached : r.Unreached v ↔ v.Unwritable := and_iff_right (Or.inl heq)
    cases ht : r.threshold.datum.normalText with
    | error e' => exact absurd (Threshold.normalText_error_iff.mp ht) (hr e')
    | ok text =>
      rw [hunreached, ← Datum.normalText_error_iff]
      cases v.normalText <;> simp [bind, Except.bind, pure, Except.pure]
  next =>
    rw [Rule.holdsFor, Condition.eval_error_iff]
    constructor
    · intro h
      cases h with
      | actual h => exact Or.inl h
      | threshold _ h => exact absurd h (hr e)
      | texts compares _ _ h => exact Or.inr ⟨⟨compares, h.resolve_right Threshold.not_unwritable⟩, rfl⟩
    · rintro (h | ⟨⟨compares, h⟩, rfl⟩)
      · exact .actual h
      · exact .texts compares (Datum.readable_of_unwritable h) hr (Or.inl h)

/-- Whether the rule can be judged at a reading. -/
def Judges (r : MasterRule) (v : Datum) : Prop := v.Readable ∧ ¬ r.Unreached v

/-- Why a rule cannot be judged on the samples of a unit. -/
inductive Breaks (r : MasterRule) (unit : String) (samples : List Sample) (t : Timers) :
    Failure → Prop
  /-- The threshold has no number. -/
  | threshold {e : Failure} (h : r.threshold.datum.Unreadable e) : Breaks r unit samples t e
  /-- A reading that the rule looks at has none. -/
  | reading {before after : List Sample} {s : Sample} {e : Failure}
      (sound : r.threshold.datum.Readable)
      (split : r.relevant samples = before ++ s :: after)
      (first : ∀ x ∈ before, r.Judges x.value) (h : s.value.Unreadable e) :
      Breaks r unit samples t e
  /-- A reading that the rule looks at has no text to be compared by. -/
  | text {before after : List Sample} {s : Sample}
      (sound : r.threshold.datum.Readable)
      (split : r.relevant samples = before ++ s :: after)
      (first : ∀ x ∈ before, r.Judges x.value) (h : r.Unreached s.value) :
      Breaks r unit samples t .tooManyDigits
  /-- The run waits, and the time since its timer was started does not compare with the
  duration. -/
  | timer {key : TimerKey} {run : ActiveRun} {d : Duration} {start : Stamp} {u : Timers}
      {e : Failure} (own : r.timerKey unit = .ok key)
      (found : ActiveRun.find r samples = .ok (some run)) (read : run.latest.kind ≠ .computed)
      (duration : r.duration = some d) (waits : d.isInstant = false)
      (started : (if run.interrupted then t.clear key else t).observe key (.utc run.first.time) =
        (.ok start, u))
      (h : Timers.lasted d start (.utc run.latest.time) = .error e) : Breaks r unit samples t e

theorem find_error_iff (hr : r.threshold.datum.Readable) :
    ActiveRun.find r samples = .error e ↔
      ∃ before s after, r.relevant samples = before ++ s :: after ∧
        (∀ x ∈ before, r.Judges x.value) ∧
          (s.value.Unreadable e ∨ r.Unreached s.value ∧ e = .tooManyDigits) := by
  have hok (v : Datum) : (∃ b, r.holdsAt v = .ok b) ↔ r.Judges v := by
    have hjudges : r.Judges v ↔ ∀ e, ¬ r.holdsAt v = .error e := by
      simp only [holdsAt_error_iff hr, not_or, not_and, forall_and, Judges, Datum.Readable]
      exact and_congr_right fun _ => ⟨fun h _ h' => absurd h' h, fun h h' => h _ h' rfl⟩
    rw [hjudges]
    cases r.holdsAt v <;> simp
  unfold ActiveRun.find
  rw [ActiveRun.follow_error_iff]
  simp only [hok, holdsAt_error_iff hr, relevant]

theorem ripe_error_iff {run : ActiveRun} :
    (r.ripe key run t).1 = .error e ↔
      run.latest.kind ≠ .computed ∧ ∃ d start u, r.duration = some d ∧ d.isInstant = false ∧
        (if run.interrupted then t.clear key else t).observe key (.utc run.first.time) =
          (.ok start, u) ∧ Timers.lasted d start (.utc run.latest.time) = .error e := by
  unfold ripe
  split
  next hpasses =>
    simp only [reduceCtorEq, false_iff, not_and, not_exists]
    intro hread d start u hd hinstant
    have hg : r.gated = true := Rule.gated_iff.mpr ⟨d, hd, hinstant⟩
    simp [hread, hg] at hpasses
  next hasks =>
    simp only [Bool.not_eq_true', not_or, Bool.not_eq_false] at hasks
    obtain ⟨hread, hg⟩ := hasks
    obtain ⟨d, hd, hinstant⟩ := Rule.gated_iff.mp hg
    generalize (if run.interrupted = true then t.clear key else t) = w
    rw [hd]
    simp only [Timers.sustained, hinstant, Bool.false_eq_true, ↓reduceIte, Option.getD_some]
    cases ho : w.observe key (.utc run.first.time) with
    | mk result v =>
      cases result with
      | error e' => simp
      | ok start =>
        constructor
        · intro h
          exact ⟨hread, d, start, v, rfl, hinstant, rfl, h⟩
        · rintro ⟨-, d', start', v', hd', -, hstart, h⟩
          obtain rfl := Option.some.inj hd'
          obtain rfl := Except.ok.inj (Prod.mk.inj hstart).1
          exact h

theorem verdict_error_iff : (r.verdict unit samples t).1 = .error e ↔ r.Breaks unit samples t e := by
  cases hk : r.timerKey unit with
  | error e' =>
    have hunreadable := Rule.timerKey_error_iff.mp hk
    simp only [verdict, hk, Except.error.injEq]
    constructor
    · rintro rfl
      exact .threshold hunreadable
    · intro h
      cases h with
      | threshold h =>
        exact Except.error.inj (hk.symm.trans (Rule.timerKey_error_iff.mpr h))
      | reading sound => exact absurd hunreadable (sound e')
      | text sound => exact absurd hunreadable (sound e')
      | timer own =>
        rw [hk] at own
        cases own
  | ok key =>
    have hsound : r.threshold.datum.Readable := by
      intro e' h
      rw [Rule.timerKey_error_iff.mpr h] at hk
      cases hk
    have hcases : r.Breaks unit samples t e ↔ ActiveRun.find r samples = .error e ∨
        ∃ run, ActiveRun.find r samples = .ok (some run) ∧ (r.ripe key run t).1 = .error e := by
      simp only [find_error_iff hsound, ripe_error_iff]
      constructor
      · intro h
        cases h with
        | threshold h => exact absurd h (hsound e)
        | reading sound split first h => exact Or.inl ⟨_, _, _, split, first, Or.inl h⟩
        | text sound split first h => exact Or.inl ⟨_, _, _, split, first, Or.inr ⟨h, rfl⟩⟩
        | timer own found read duration waits started h =>
          obtain rfl := Except.ok.inj (hk.symm.trans own)
          exact Or.inr ⟨_, found, read, _, _, _, duration, waits, started, h⟩
      · rintro (⟨before, s, after, hsplit, hfirst, h | ⟨h, rfl⟩⟩ |
          ⟨run, hfound, hread, d, start, u, hd, hinstant, hstart, h⟩)
        · exact .reading hsound hsplit hfirst h
        · exact .text hsound hsplit hfirst h
        · exact .timer hk hfound hread hd hinstant hstart h
    rw [hcases]
    simp only [verdict, hk]
    cases hrun : ActiveRun.find r samples with
    | error e' => simp
    | ok out =>
      cases out with
      | none => simp
      | some run =>
        cases hripe : r.ripe key run t with
        | mk result v =>
          cases result with
          | error e' => simp [hripe]
          | ok b => cases b <;> simp [hripe]

end MasterRule

/-! ## The rules one after another -/

variable {unit : String} {samples : List Sample}

/-- An arbitration fails at the first rule that is reached and cannot be judged. -/
theorem arbitrateFrom_error_iff {collected : List MasterMatch} {rules : List MasterRule} {t : Timers}
    {e : Failure} :
    (arbitrateFrom unit samples collected rules t).1 = .error e ↔
      ∃ front r back c u, rules = front ++ r :: back ∧
        arbitrateFrom unit samples collected front t = (.ok ⟨none, c⟩, u) ∧ r.enabled = true ∧
          r.Breaks unit samples u e := by
  constructor
  · intro h
    induction rules generalizing collected t with
    | nil => cases h
    | cons r rest ih =>
      cases hon : r.enabled with
      | false =>
        simp only [arbitrateFrom, hon, Bool.false_eq_true, ↓reduceIte] at h
        obtain ⟨front, q, back, c, u, rfl, hfront, hq, hbreaks⟩ := ih h
        exact ⟨r :: front, q, back, c, u, rfl, by simpa [arbitrateFrom, hon] using hfront, hq,
          hbreaks⟩
      | true =>
        simp only [arbitrateFrom, hon, ↓reduceIte] at h
        split at h
        next e' u hv =>
          obtain rfl : e' = e := Except.error.inj h
          have hbreaks := MasterRule.verdict_error_iff.mp (congrArg Prod.fst hv)
          exact ⟨[], r, rest, collected, t, rfl, rfl, hon, hbreaks⟩
        next v hv =>
          obtain ⟨front, q, back, c, u, rfl, hfront, hq, hbreaks⟩ := ih h
          exact ⟨r :: front, q, back, c, u, rfl, by simpa [arbitrateFrom, hon, hv] using hfront, hq,
            hbreaks⟩
        next m v hv =>
          split at h
          next => cases h
          next hblocks =>
            obtain ⟨front, q, back, c, u, rfl, hfront, hq, hbreaks⟩ := ih h
            exact ⟨r :: front, q, back, c, u, rfl,
              by simpa [arbitrateFrom, hon, hv, hblocks] using hfront, hq, hbreaks⟩
  · rintro ⟨front, r, back, c, u, rfl, hfront, hon, hbreaks⟩
    have hverdict : r.verdict unit samples u = (.error e, (r.verdict unit samples u).2) :=
      Prod.ext (MasterRule.verdict_error_iff.mpr hbreaks) rfl
    rw [arbitrateFrom_append, hfront]
    simp only [arbitrateFrom, hon, ↓reduceIte]
    rw [hverdict]

end FaultDesk
