import FaultDesk.Proofs.Rate.Calls
import FaultDesk.Proofs.Selection.Grounds
import FaultDesk.Proofs.Timer.Ahead

/-!
A rule that fails is as good as absent. It may have started its timer before it has failed, and a rule
behind it may have the same timer. All rules ask about one sample, so the one behind it is answered as
if it had started the timer itself.
-/

namespace FaultDesk

open Timers

/-! ## Judgements one after another -/

section Search

variable {α β : Type} {judge : α → Timers → Except Failure (Option β) × Timers} {i : Instant}
  {t u : Timers}

/-- The first thing that is found. A judgement that fails finds nothing. -/
def firstFound (judge : α → Timers → Except Failure (Option β) × Timers) :
    List α → Timers → Option β × Timers
  | [], t => (none, t)
  | a :: rest, t =>
    match judge a t with
    | (.ok (some b), t) => (some b, t)
    | (_, t) => firstFound judge rest t

/-- What is left of a list when the items are removed whose judgement fails on the way to the first
thing that is found. -/
def withoutFailing (judge : α → Timers → Except Failure (Option β) × Timers) :
    List α → Timers → List α
  | [], _ => []
  | a :: rest, t =>
    match judge a t with
    | (.error _, t) => withoutFailing judge rest t
    | (.ok none, t) => a :: withoutFailing judge rest t
    | (.ok (some _), _) => a :: rest

/-- Judgements that ask the timers how long something has lasted since an instant. One that fails has
done nothing else to them. -/
structure CountsFrom (i : Instant) (judge : α → Timers → Except Failure (Option β) × Timers) :
    Prop where
  both : ∀ a {t u}, Ahead i t u → AheadOutcome i (judge a t) (judge a u)
  failed : ∀ a {t u e}, Ahead i t u → (judge a t).1 = .error e → Ahead i (judge a t).2 u

/-- Without the items that fail the same is found, and nothing fails any more. -/
theorem CountsFrom.firstFound_withoutFailing (hj : CountsFrom i judge) (h : Ahead i t u)
    (items : List α) :
    (firstFound judge (withoutFailing judge items t) u).1 = (firstFound judge items t).1 ∧
      withoutFailing judge (withoutFailing judge items t) u = withoutFailing judge items t := by
  induction items generalizing t u with
  | nil => exact ⟨rfl, rfl⟩
  | cons a rest ih =>
    obtain ⟨result, t', u', ht, hu, h'⟩ := (hj.both a h).split
    rcases result with e | found
    · have hleft : Ahead i t' u := by
        have hfailed := hj.failed a h (congrArg Prod.fst ht)
        rwa [ht] at hfailed
      simpa only [withoutFailing, firstFound, ht] using ih hleft
    · cases found with
      | none =>
        obtain ⟨hfound, hkept⟩ := ih h'
        simp only [withoutFailing, firstFound, ht, hu]
        exact ⟨hfound, congrArg (a :: ·) hkept⟩
      | some b =>
        simp only [withoutFailing, firstFound, ht, hu]
        exact ⟨trivial, trivial⟩

end Search

/-! ## The rules -/

section Rules

variable {s : Sample} {related : List Sample} {h : History} {now : Instant} {t : Timers} {e : Failure}

/-- The judgement of a simple rule. A rule that does not look at the sample does not match. -/
def Rule.judge (s : Sample) (related : List Sample) (r : Rule) (t : Timers) :
    Except Failure (Option Rule) × Timers :=
  if r.watches s then
    let (verdict, t) := r.verdict s related t
    (verdict.map fun holds => if holds then some r else none, t)
  else (.ok none, t)

/-- The judgement of a rate rule. -/
def RateRule.judge (s : Sample) (related : List Sample) (h : History) (now : Instant) (r : RateRule)
    (t : Timers) : Except Failure (Option Candidate) × Timers :=
  if r.watches s then
    let (verdict, t) := r.verdict s related h now t
    (verdict.map (Option.map fun st => .ofSample s (.rate r) (some st)), t)
  else (.ok none, t)

theorem matchFrom_eq_firstFound (n : Nat) (rules : List Rule) (t : Timers) :
    (matchFrom s related n rules t).1.map (·.2) = (firstFound (Rule.judge s related) rules t).1 := by
  induction rules generalizing n t with
  | nil => rfl
  | cons r rest ih =>
    simp only [matchFrom, firstFound, Rule.judge]
    split
    next =>
      obtain ⟨e | _ | _, t'⟩ := r.verdict s related t
      next => exact ih (n + 1) t'
      next => exact ih (n + 1) t'
      next => rfl
    next => exact ih (n + 1) t

theorem rateFrom_eq_firstFound (rules : List RateRule) (t : Timers) :
    rateFrom s related h now (rules.filter fun r => r.watches s) t =
      firstFound (RateRule.judge s related h now) rules t := by
  induction rules generalizing t with
  | nil => rfl
  | cons r rest ih =>
    by_cases hw : r.watches s = true
    · rw [List.filter_cons_of_pos (p := fun r : RateRule => r.watches s) hw]
      simp only [rateFrom, firstFound, RateRule.judge, hw, ↓reduceIte]
      obtain ⟨e | _ | st, t'⟩ := r.verdict s related h now t
      next => exact ih t'
      next => exact ih t'
      next => rfl
    · rw [List.filter_cons_of_neg (p := fun r : RateRule => r.watches s) hw]
      simp only [firstFound, RateRule.judge, if_neg hw]
      exact ih t

theorem firstRate_eq_firstFound {past : List Sample} (hform : History.ofSamples past = .ok h)
    (rules : List RateRule) (t : Timers) :
    (firstRate s related past now rules t).1 =
      .ok (firstFound (RateRule.judge s related h now) rules t).1 := by
  rw [← rateFrom_eq_firstFound]
  unfold firstRate firstRateIn
  split
  next => rw [hform]
  next hany =>
    have hnone : (rules.filter fun r => r.watches s) = [] := by simpa using hany
    rw [hnone]
    rfl

/-- A verdict that fails has at most asked a timer. -/
theorem Rule.verdict_failed {r : Rule} (hfails : (r.verdict s related t).1 = .error e) :
    (r.verdict s related t).2 = t ∨
      ∃ key, (r.verdict s related t).2 = (t.sustained key r.duration (.utc s.time) none).2 := by
  unfold Rule.verdict Rule.askTimer Rule.clearTimer at hfails ⊢
  cases hpre : r.prerequisiteHolds s related with
  | error e => exact Or.inl rfl
  | ok holds =>
    cases holds with
    | false => exact Or.inl rfl
    | true =>
      rw [hpre] at hfails
      dsimp only at hfails ⊢
      cases hholds : r.holdsFor s.value with
      | error e => exact Or.inl rfl
      | ok b =>
        rw [hholds] at hfails
        cases hg : r.gated with
        | false => cases b <;> exact Or.inl rfl
        | true =>
          cases hk : r.timerKey s.unit with
          | error e => cases b <;> exact Or.inl rfl
          | ok key =>
            cases b with
            | false => simp [hg, hk] at hfails
            | true => exact Or.inr ⟨key, rfl⟩

/-- Unless the condition is false now, the gate of a rate rule at most asks a timer. -/
theorem RateRule.gate_asks {r : RateRule} (hasks : (r.gate s t).1 ≠ .ok none) :
    (r.gate s t).2 = t ∨
      ∃ key, (r.gate s t).2 = (t.sustained key r.duration (.utc s.time) none).2 := by
  unfold RateRule.gate at hasks ⊢
  split
  next hg =>
    split
    next => exact Or.inl rfl
    next key hk =>
      split
      next => exact Or.inl rfl
      next hholds => simp [hg, hk, hholds] at hasks
      next =>
        refine Or.inr ⟨key, ?_⟩
        split
        next heq => rw [heq]
        next heq => rw [heq]
  next => exact Or.inl rfl

theorem RateRule.verdict_failed {r : RateRule} (hfails : (r.verdict s related h now t).1 = .error e) :
    (r.verdict s related h now t).2 = t ∨
      ∃ key, (r.verdict s related h now t).2 = (t.sustained key r.duration (.utc s.time) none).2 := by
  have hasks := r.gate_asks (s := s) (t := t)
  unfold RateRule.verdict at hfails ⊢
  split
  next => exact Or.inl rfl
  next => exact Or.inl rfl
  next hpre =>
    rw [hpre] at hfails
    dsimp only at hfails
    split
    next hgate => simpa [hgate] using hasks
    next hgate => simp [hgate] at hfails
    next hgate => simpa [hgate] using hasks

theorem error_of_map {ε α β : Type} {x : Except ε α} {f : α → β} {e : ε} (h : x.map f = .error e) :
    x = .error e := by
  cases x with
  | error e' => exact congrArg Except.error (Except.error.inj h)
  | ok a => cases h

/-- What a question to the timers that counts from an instant leaves is ahead. -/
theorem ahead_of_asked {t' u : Timers} {i : Instant} {d : Option Duration} (hahead : Ahead i t u)
    (h : t' = t ∨ ∃ key, t' = (t.sustained key d (.utc i) none).2) : Ahead i t' u := by
  rcases h with rfl | ⟨key, rfl⟩
  · exact hahead
  · exact hahead.asked key d (.utc i)

theorem Rule.judge_countsFrom (s : Sample) (related : List Sample) :
    CountsFrom s.time (Rule.judge s related) := by
  constructor
  · intro r t u hahead
    unfold Rule.judge
    split
    next hw =>
      have hasking : (r.dialogue s related).Asking fun _ since => since = s.time :=
        Rule.dialogue_asking hw fun _ _ => rfl
      have hheld := Dialogue.hold_ahead hasking hahead
      rw [r.hold_dialogue, r.hold_dialogue] at hheld
      exact ⟨congrArg (Except.map _) hheld.result, hheld.timers⟩
    next => exact ⟨rfl, hahead⟩
  · intro r t u e hahead hfails
    unfold Rule.judge at hfails ⊢
    split
    next hw =>
      rw [if_pos hw] at hfails
      exact ahead_of_asked hahead (Rule.verdict_failed (error_of_map hfails))
    next => exact hahead

theorem RateRule.judge_countsFrom (s : Sample) (related : List Sample) (h : History) (now : Instant) :
    CountsFrom s.time (RateRule.judge s related h now) := by
  constructor
  · intro r t u hahead
    unfold RateRule.judge
    split
    next hw =>
      have hasking : (r.rateDialogue s related h now).Asking fun _ since => since = s.time := by
        refine RateRule.rateDialogue_asking hw ?_ h now
        exact fun _ _ => rfl
      have hheld := Dialogue.hold_ahead hasking hahead
      rw [r.hold_rateDialogue, r.hold_rateDialogue] at hheld
      exact ⟨congrArg (Except.map _) hheld.result, hheld.timers⟩
    next => exact ⟨rfl, hahead⟩
  · intro r t u e hahead hfails
    unfold RateRule.judge at hfails ⊢
    split
    next hw =>
      rw [if_pos hw] at hfails
      exact ahead_of_asked hahead (RateRule.verdict_failed (error_of_map hfails))
    next => exact hahead

end Rules

/-! ## The rule that matches -/

section Match

variable {s : Sample} {related : List Sample} {rules : List Rule} {t : Timers} {p : Nat} {r : Rule}

/-- The rule in a place completes: it looks at the sample, its prerequisite and its condition hold, and
if it waits then its timer, as the rules before it have left it, has run for long enough. -/
structure Rule.Completes (s : Sample) (related : List Sample) (rules : List Rule) (t : Timers) (p : Nat)
    (r : Rule) : Prop where
  place : rules[p]? = some r
  enabled : r.enabled = true
  tag : r.tag = s.tag
  table : s.kind.fits r.table = true
  prerequisite : r.prerequisiteHolds s related = .ok true
  condition : r.holdsFor s.value = .ok true
  gate : r.gated = true → (r.askTimer s (firstMatch s related (rules.take p) t).2).1 = .ok true

theorem Rule.verdict_ok_true_iff : (r.verdict s related t).1 = .ok true ↔
    r.prerequisiteHolds s related = .ok true ∧ r.holdsFor s.value = .ok true ∧
      (r.gated = true → (r.askTimer s t).1 = .ok true) := by
  constructor
  · intro h
    refine ⟨prerequisiteHolds_of_verdict_true h, holdsFor_of_verdict_true h, ?_⟩
    intro hg
    obtain ⟨-, -, key, hk, hasked⟩ := of_verdict_true hg (Prod.ext h rfl)
    unfold Rule.askTimer
    rw [hk]
    exact congrArg Prod.fst hasked
  · rintro ⟨hpre, hholds, hgate⟩
    unfold Rule.verdict
    rw [hpre]
    dsimp only
    rw [hholds]
    dsimp only
    split
    next hg => exact hgate hg
    next => rfl

theorem Rule.completes_iff : r.Completes s related rules t p ↔
    rules[p]? = some r ∧ r.watches s = true ∧
      (r.verdict s related (firstMatch s related (rules.take p) t).2).1 = .ok true := by
  rw [Rule.verdict_ok_true_iff]
  constructor
  · rintro ⟨hplace, hon, htag, htable, hpre, hholds, hgate⟩
    exact ⟨hplace, by simp [Rule.watches, hon, htag, htable], hpre, hholds, hgate⟩
  · rintro ⟨hplace, hw, hpre, hholds, hgate⟩
    simp only [Rule.watches, Bool.and_eq_true, beq_iff_eq] at hw
    exact ⟨hplace, hw.1.1, hw.1.2, hw.2, hpre, hholds, hgate⟩

/-- A rule that completes matches, unless a rule before it does. -/
theorem Rule.Completes.firstMatch_eq (h : r.Completes s related rules t p)
    (hnone : (firstMatch s related (rules.take p) t).1 = none) :
    (firstMatch s related rules t).1 = some (p, r) := by
  obtain ⟨hplace, hw, hverdict⟩ := Rule.completes_iff.mp h
  obtain ⟨hlt, -⟩ := List.getElem?_eq_some_iff.mp hplace
  unfold firstMatch at hnone hverdict ⊢
  rw [eq_take_append_cons_drop hplace, matchFrom_append]
  rcases hfront : matchFrom s related 0 (rules.take p) t with ⟨found, u⟩
  rw [hfront] at hnone hverdict
  obtain rfl : found = none := hnone
  rcases hjudged : r.verdict s related u with ⟨verdict, v⟩
  rw [hjudged] at hverdict
  obtain rfl : verdict = .ok true := hverdict
  simp only [matchFrom, hw, ↓reduceIte, hjudged, List.length_take, Nat.min_eq_left (Nat.le_of_lt hlt),
    Nat.zero_add]

theorem firstMatch_take_eq_none {q : Nat} (hq : q ≤ p)
    (h : (firstMatch s related (rules.take p) t).1 = none) :
    (firstMatch s related (rules.take q) t).1 = none := by
  unfold firstMatch at h ⊢
  have hsplit : rules.take p = rules.take q ++ (rules.take p).drop q := by
    conv_lhs => rw [← List.take_append_drop q (rules.take p), List.take_take, Nat.min_eq_left hq]
  rw [hsplit, matchFrom_append] at h
  split at h
  next => cases h
  next heq => rw [heq]

/-- The rule that matches is the first of those that complete. -/
theorem firstMatch_eq_some_iff : (firstMatch s related rules t).1 = some (p, r) ↔
    r.Completes s related rules t p ∧
      ∀ q (r' : Rule), q < p → ¬ r'.Completes s related rules t q := by
  constructor
  · intro h
    obtain ⟨hplace, hw, hnone, hverdict⟩ := firstMatch_some h
    refine ⟨Rule.completes_iff.mpr ⟨hplace, hw, congrArg Prod.fst hverdict⟩, ?_⟩
    intro q r' hq hcompletes
    have hfirst := hcompletes.firstMatch_eq (firstMatch_take_eq_none (Nat.le_of_lt hq) hnone)
    rw [h] at hfirst
    cases hfirst
    exact absurd hq (Nat.lt_irrefl _)
  · rintro ⟨hcompletes, hfirst⟩
    refine hcompletes.firstMatch_eq ?_
    cases hfound : (firstMatch s related (rules.take p) t).1 with
    | none => rfl
    | some found =>
      obtain ⟨q, r'⟩ := found
      obtain ⟨hplace, hw, -, hverdict⟩ := firstMatch_some hfound
      obtain ⟨hlt, -⟩ := List.getElem?_eq_some_iff.mp hplace
      have hq : q < p := by
        rw [List.length_take] at hlt
        omega
      rw [List.getElem?_take_of_lt hq] at hplace
      rw [List.take_take, Nat.min_eq_left (Nat.le_of_lt hq)] at hverdict
      exact absurd (Rule.completes_iff.mpr ⟨hplace, hw, congrArg Prod.fst hverdict⟩)
        (hfirst q r' hq)

end Match

/-- Where what fails does not change, a rule that fails is as good as absent. Of the simple rules the
first that completes matches, and it matches as well when the rules are removed that fail before it;
none of those that are left fails. With past readings in form the rate rules give a candidate or none,
and the same one without the rules that fail. -/
theorem failing_rules_as_absent (s : Sample) (related : List Sample) (rules : List Rule) (t : Timers)
    (hfixed : ∀ m n what, t.outage m what = t.outage n what) :
    let sound := withoutFailing (Rule.judge s related) rules t
    (firstMatch s related sound t).1.map (·.2) = (firstMatch s related rules t).1.map (·.2) ∧
      withoutFailing (Rule.judge s related) sound t = sound ∧
      (∀ p r, (firstMatch s related rules t).1 = some (p, r) ↔ r.Completes s related rules t p ∧
        ∀ q (r' : Rule), q < p → ¬ r'.Completes s related rules t q) ∧
      ∀ past now h (rates : List RateRule), History.ofSamples past = .ok h → ∃ found,
        (firstRate s related past now rates t).1 = .ok found ∧
        (firstRate s related past now (withoutFailing (RateRule.judge s related h now) rates t) t).1 =
          .ok found := by
  intro sound
  have hahead : Ahead s.time t t := .refl hfixed
  obtain ⟨hfound, hsound⟩ :=
    (Rule.judge_countsFrom s related).firstFound_withoutFailing hahead rules
  refine ⟨?_, hsound, fun p r => firstMatch_eq_some_iff, ?_⟩
  · unfold firstMatch
    rw [matchFrom_eq_firstFound, matchFrom_eq_firstFound]
    exact hfound
  · intro past now h rates hform
    refine ⟨_, firstRate_eq_firstFound hform rates t, ?_⟩
    rw [firstRate_eq_firstFound hform]
    exact congrArg _
      ((RateRule.judge_countsFrom s related h now).firstFound_withoutFailing hahead rates).1

/-- The first rule starts a timer and fails, since no span is as long as its duration. The second rule
waits on the same timer, and the third matches, as it does where the first is not there. Nothing can
be deleted. -/
theorem endless_rule_as_absent :
    let t := (Timers.empty true).failing fun _ what => what == .delete
    let s := Sample.reading "Tag1" 1 5
    let endless : Rule := { Rule.reads "Tag1" 1 0 with duration := some Selector.endless }
    let others : List Rule := [.reads "Tag1" 1 10, .reads "Tag1" 1 0]
    (endless.verdict s [] t).1 = .error (.spanTooLong 1000000000) ∧
      (endless.verdict s [] t).2.find? ⟨"101", "Tag1", "1"⟩ = some (.naive 300000000) ∧
      (firstMatch s [] (endless :: others) t).1 = some (2, .reads "Tag1" 1 0) ∧
      (firstMatch s [] others t).1.map (·.2) = some (.reads "Tag1" 1 0) := by
  intro t s endless others
  have hmatched : (firstMatch s [] (endless :: others) t).1 = some (2, .reads "Tag1" 1 0) := by
    decide +kernel
  have hsound : withoutFailing (Rule.judge s []) (endless :: others) t = others := by
    decide +kernel
  have hsame := (failing_rules_as_absent s [] (endless :: others) t fun _ _ _ => rfl).1
  rw [hsound, hmatched] at hsame
  exact ⟨by decide +kernel, by decide +kernel, hmatched, hsame⟩

end FaultDesk
