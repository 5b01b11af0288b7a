import FaultDesk.Proofs.Selection.Failing
import FaultDesk.Proofs.Selection.Hits
import FaultDesk.Proofs.Selection.Prerequisites

/-!
What a prerequisite goes by in a block: the reading of the sample's own row, else the sample, else the
last reading of its tag and table among the other samples that are not later. A rule whose prerequisite
has no such reading or is not satisfied by it is as good as absent.
-/

namespace FaultDesk

/-- The last of the other samples that a prerequisite bound to a table may look at for a sample. -/
def Prerequisite.lastAmong (p : Prerequisite) (s : Sample) (others : List Sample) : Option Sample :=
  (others.filter fun q => decide (q.time ≤ s.time) && (q.tag == p.tag && q.kind.fits p.table)).getLast?

/-- The reading that a prerequisite is to go by for a sample among others. -/
def Prerequisite.recent? (p : Prerequisite) (s : Sample) (others : List Sample) : Option Datum :=
  ((s.row.getD []).value? p.tag).or
    (if p.tag = s.tag then some s.value
      else if p.table.any (!·.isEmpty) then (p.lastAmong s others).map (·.value) else none)

section Position

variable {seen front back : List Sample} {s : Sample}

/-- A sample of a block with the others that are not later, the last of them first. -/
theorem withRelated_cons_at (seen front back : List Sample) (s : Sample) :
    ∃ before after, withRelated seen (front ++ s :: back) =
        before ++
          (s, ((seen.reverse ++ front ++ back).filter fun q => decide (q.time ≤ s.time)).reverse) ::
            after ∧
      before.map (·.1) = front ∧ after.map (·.1) = back := by
  induction front generalizing seen with
  | nil =>
    refine ⟨[], withRelated (s :: seen) back, ?_, rfl, map_fst_withRelated _ _⟩
    simp [withRelated, List.filter_reverse]
  | cons x front ih =>
    obtain ⟨before, after, hsplit, hbefore, hafter⟩ := ih (x :: seen)
    obtain ⟨related, hhead⟩ : ∃ related, withRelated seen (x :: front ++ s :: back) =
        (x, related) :: withRelated (x :: seen) (front ++ s :: back) := ⟨_, rfl⟩
    refine ⟨(x, related) :: before, after, ?_, by rw [List.map_cons, hbefore], hafter⟩
    rw [hhead, hsplit]
    simp

theorem find?_reverse_eq_getLast? {p : Sample → Bool} (samples : List Sample) :
    samples.reverse.find? p = (samples.filter p).getLast? := by
  rw [← List.head?_filter, List.filter_reverse, List.head?_reverse]

/-- Going through the related samples from the last on finds the last that fits. -/
theorem Prerequisite.reading_eq_recent (p : Prerequisite) (s : Sample) (others : List Sample) :
    p.reading? s (others.filter fun q => decide (q.time ≤ s.time)).reverse = p.recent? s others := by
  have hlast : (others.filter fun q => decide (q.time ≤ s.time)).reverse.find?
      (fun q => q.tag == p.tag && q.kind.fits p.table) = p.lastAmong s others := by
    rw [find?_reverse_eq_getLast?, List.filter_filter, lastAmong]
    congr 1
    exact List.filter_congr fun q _ => Bool.and_comm _ _
  unfold reading? recent?
  cases hrow : (s.row.getD []).value? p.tag with
  | some v => rfl
  | none =>
    rw [hlast]
    cases htable : p.table with
    | none => simp
    | some table => cases hnamed : table.isEmpty <;> simp [hnamed]

/-- No sample that fits is later than the last. -/
theorem Prerequisite.lastAmong_latest {p : Prerequisite} {others : List Sample} {q : Sample}
    (hordered : others.Pairwise fun a b => a.time ≤ b.time) (h : p.lastAmong s others = some q) :
    ∀ x ∈ others, x.time ≤ s.time → x.tag = p.tag → x.kind.fits p.table = true → x.time ≤ q.time := by
  intro x hx hle htag hfits
  unfold lastAmong at h
  exact le_of_getLast? (hordered.filter _) h x (List.mem_filter.mpr ⟨hx, by simp [hle, htag, hfits]⟩)

end Position

/-! ## A prerequisite that is not satisfied -/

section Unmet

variable {s : Sample} {related : List Sample} {t : Timers}

/-- A prerequisite holds just where its reading is there and satisfies it. -/
theorem Prerequisite.satisfied_iff {p : Prerequisite} :
    p.satisfied s related = .ok true ↔
      ∃ v, p.reading? s related = some v ∧ p.condition.eval v p.value.datum = .ok true := by
  constructor
  · exact reading_of_satisfied
  · rintro ⟨v, hv, htrue⟩
    unfold satisfied
    rw [hv]
    dsimp only
    rw [htrue]

/-- A simple rule whose prerequisite does not hold gives nothing and leaves the timers alone. -/
theorem Rule.verdict_of_unmet {r : Rule} (hunmet : r.prerequisiteHolds s related ≠ .ok true)
    (t : Timers) : (r.verdict s related t).2 = t ∧ (r.verdict s related t).1 ≠ .ok true := by
  unfold Rule.verdict
  split
  next => exact ⟨rfl, by simp⟩
  next => exact ⟨rfl, by simp⟩
  next hmet => exact absurd hmet hunmet

/-- A rate rule whose prerequisite does not hold gives nothing and leaves the timers alone. -/
theorem RateRule.verdict_of_unmet {r : RateRule} {h : History} {now : Instant}
    (hunmet : r.prerequisiteHolds s related ≠ .ok true) (t : Timers) :
    (r.verdict s related h now t).2 = t ∧ ∀ st, (r.verdict s related h now t).1 ≠ .ok (some st) := by
  unfold RateRule.verdict
  split
  next => exact ⟨rfl, by simp⟩
  next => exact ⟨rfl, by simp⟩
  next hmet => exact absurd hmet hunmet

/-- What finds nothing and leaves the timers alone is as good as absent. -/
theorem firstFound_of_idle {α β : Type} {judge : α → Timers → Except Failure (Option β) × Timers}
    {a : α} (hidle : ∀ t, (judge a t).2 = t ∧ ∀ b, (judge a t).1 ≠ .ok (some b)) (front back : List α)
    (t : Timers) : firstFound judge (front ++ a :: back) t = firstFound judge (front ++ back) t := by
  induction front generalizing t with
  | nil =>
    obtain ⟨hsame, hnone⟩ := hidle t
    have hjudge : judge a t = ((judge a t).1, t) := Prod.ext rfl hsame
    rw [List.nil_append, List.nil_append, firstFound, hjudge]
    cases hresult : (judge a t).1 with
    | error e => rfl
    | ok found =>
      cases found with
      | none => rfl
      | some b => exact absurd hresult (hnone b)
  | cons x front ih =>
    simp only [List.cons_append, firstFound, ih]

theorem Rule.judge_of_unmet {r : Rule} (hunmet : r.prerequisiteHolds s related ≠ .ok true)
    (t : Timers) :
    (r.judge s related t).2 = t ∧ ∀ q, (r.judge s related t).1 ≠ .ok (some q) := by
  obtain ⟨hsame, hnone⟩ := r.verdict_of_unmet hunmet t
  unfold Rule.judge
  split
  next =>
    refine ⟨hsame, fun q => ?_⟩
    cases hv : (r.verdict s related t).1 with
    | error e => simp [hv, Except.map]
    | ok b =>
      cases b with
      | false => simp [hv, Except.map]
      | true => exact absurd hv hnone
  next => exact ⟨rfl, by simp⟩

theorem RateRule.judge_of_unmet {r : RateRule} {h : History} {now : Instant}
    (hunmet : r.prerequisiteHolds s related ≠ .ok true) (t : Timers) :
    (r.judge s related h now t).2 = t ∧ ∀ c, (r.judge s related h now t).1 ≠ .ok (some c) := by
  obtain ⟨hsame, hnone⟩ := @RateRule.verdict_of_unmet s related r h now hunmet t
  unfold RateRule.judge
  split
  next =>
    refine ⟨hsame, fun c => ?_⟩
    cases hv : (r.verdict s related h now t).1 with
    | error e => simp [hv, Except.map]
    | ok found =>
      cases found with
      | none => simp [hv, Except.map]
      | some st => exact absurd hv (hnone st)
  next => exact ⟨rfl, by simp⟩

/-- The rules as judgements one after another, with what they leave of the timers. -/
theorem matchFrom_judged (n : Nat) (rules : List Rule) (t : Timers) :
    ((matchFrom s related n rules t).1.map (·.2), (matchFrom s related n rules t).2) =
      firstFound (Rule.judge s related) rules t := by
  induction rules generalizing n t with
  | nil => rfl
  | cons r rest ih =>
    simp only [matchFrom, firstFound, Rule.judge]
    split
    next =>
      obtain ⟨e | _ | _, t'⟩ := r.verdict s related t
      next => exact ih (n + 1) t'
      next => exact ih (n + 1) t'
      next => rfl
    next => exact ih (n + 1) t

namespace Selector

variable {sel : Selector} {st : Search}

theorem trySimple_judged_by (rules : List Rule) :
    ({ sel with simple := rules }).trySimple s related st =
      match firstFound (Rule.judge s related) rules st.timers with
      | (none, t) => { st with timers := t }
      | (some r, t) => { st with timers := t, hits := st.hits ++ [.ofSample s (.simple r) none] } := by
  rw [← matchFrom_judged 0]
  unfold trySimple firstMatch
  split
  next hm => rw [hm]; rfl
  next hm => rw [hm]; rfl

/-- A simple rule whose prerequisite does not hold is as good as absent. -/
theorem trySimple_of_unmet {front back : List Rule} {r : Rule} (hsplit : sel.simple = front ++ r :: back)
    (hunmet : r.prerequisiteHolds s related ≠ .ok true) :
    sel.trySimple s related st = ({ sel with simple := front ++ back }).trySimple s related st := by
  have hself : sel = { sel with simple := front ++ r :: back } := by rw [← hsplit]
  rw [hself, trySimple_judged_by, trySimple_judged_by, firstFound_of_idle (Rule.judge_of_unmet hunmet)]

/-- A rate rule whose prerequisite does not hold is as good as absent. -/
theorem tryRate_of_unmet {front back : List RateRule} {r : RateRule} (h : History)
    (hsplit : sel.rate = front ++ r :: back) (hunmet : r.prerequisiteHolds s related ≠ .ok true) :
    sel.tryRate s related h st = ({ sel with rate := front ++ back }).tryRate s related h st := by
  unfold tryRate firstRateIn
  rw [rateFrom_eq_firstFound, rateFrom_eq_firstFound, hsplit,
    firstFound_of_idle (RateRule.judge_of_unmet hunmet)]

end Selector

end Unmet

/-! ## One sample of a block -/

/-- A rule has a prerequisite, and no reading that this is to go by satisfies it. -/
def Rule.Unmet (r : Rule) (s : Sample) (others : List Sample) : Prop :=
  ∃ p, r.prerequisite = some p ∧
    ¬ ∃ v, p.recent? s others = some v ∧ p.condition.eval v p.value.datum = .ok true

/-- On the way through a block each sample is judged with related ones in which a prerequisite finds the
reading that it is to go by, the most recent where it is that of another sample. A rule whose
prerequisite has none, or is not satisfied by it, gives nothing, leaves the timers alone, and is as good
as absent. -/
theorem prerequisites_see_recent {front back : List Sample} {s : Sample}
    (hordered : (front ++ s :: back).Pairwise fun a b => a.time ≤ b.time) :
    ∃ before after related,
      withRelated [] (front ++ s :: back) = before ++ (s, related) :: after ∧
      before.map (·.1) = front ∧ after.map (·.1) = back ∧
      (∀ (sel : Selector) (unit : String) (st : Search),
        sel.search unit (withRelated [] (front ++ s :: back)) st =
          match sel.search unit before st with
          | (some e, u) => (some e, u)
          | (none, u) => sel.search unit ((s, related) :: after) u) ∧
      (∀ p : Prerequisite, p.reading? s related = p.recent? s (front ++ back)) ∧
      (∀ (p : Prerequisite) (q : Sample), p.lastAmong s (front ++ back) = some q →
        ∀ x ∈ front ++ back, x.time ≤ s.time → x.tag = p.tag → x.kind.fits p.table = true →
          x.time ≤ q.time) ∧
      (∀ r : Rule, r.Unmet s (front ++ back) →
        (∀ t, (r.verdict s related t).2 = t ∧ (r.verdict s related t).1 ≠ .ok true) ∧
        ∀ (sel : Selector) (left right : List Rule) (st : Search), sel.simple = left ++ r :: right →
          sel.trySimple s related st = { sel with simple := left ++ right }.trySimple s related st) ∧
      ∀ r : RateRule, r.toRule.Unmet s (front ++ back) →
        (∀ h now t, (r.verdict s related h now t).2 = t ∧
          ∀ stats, (r.verdict s related h now t).1 ≠ .ok (some stats)) ∧
        ∀ (sel : Selector) (left right : List RateRule) (h : History) (st : Search),
          sel.rate = left ++ r :: right →
            sel.tryRate s related h st = { sel with rate := left ++ right }.tryRate s related h st := by
  obtain ⟨before, after, hsplit, hbefore, hafter⟩ := withRelated_cons_at [] front back s
  rw [List.reverse_nil, List.nil_append] at hsplit
  have hothers : (front ++ back).Pairwise fun a b => a.time ≤ b.time :=
    hordered.sublist (List.Sublist.append_left (List.sublist_cons_self s back) front)
  have hunmet {r : Rule} (hr : r.Unmet s (front ++ back)) : r.prerequisiteHolds s
      ((front ++ back).filter fun q => decide (q.time ≤ s.time)).reverse ≠ .ok true := by
    obtain ⟨p, hp, hnone⟩ := hr
    intro hholds
    unfold Rule.prerequisiteHolds at hholds
    rw [hp] at hholds
    obtain ⟨v, hv, htrue⟩ := Prerequisite.satisfied_iff.mp hholds
    rw [Prerequisite.reading_eq_recent] at hv
    exact hnone ⟨v, hv, htrue⟩
  refine ⟨before, after, _, hsplit, hbefore, hafter, ?_, ?_, ?_, ?_, ?_⟩
  · intro sel unit st
    rw [hsplit]
    exact Selector.search_append before _ st
  · intro p
    exact p.reading_eq_recent s (front ++ back)
  · intro p q hq
    exact Prerequisite.lastAmong_latest hothers hq
  · intro r hr
    refine ⟨fun t => r.verdict_of_unmet (hunmet hr) t, ?_⟩
    intro sel left right st hsimple
    exact Selector.trySimple_of_unmet hsimple (hunmet hr)
  · intro r hr
    refine ⟨fun h now t => r.verdict_of_unmet (hunmet hr) t, ?_⟩
    intro sel left right h st hrate
    exact Selector.tryRate_of_unmet h hrate (hunmet hr)

/-- The unit is in service as the digital table has it. -/
def switchedOn : Prerequisite := ⟨"Tag6", .whole 1, .equals, some "DIGITALDATA"⟩

/-- A lamp that reads one while the unit is switched on is a fault. -/
def switchedLamp : Rule := { Rule.reads "Tag1" 1 0 with prerequisite := some switchedOn }

/-- The unit is switched on before the lamp is read and off at the same time, but behind it: that counts,
and the rule is as good as absent. -/
theorem switchedLamp_off :
    ∃ before after related,
      withRelated [] [.reading "Tag6" 1 0, .reading "Tag1" 1 5, .reading "Tag6" 0 5] =
        before ++ (.reading "Tag1" 1 5, related) :: after ∧
      switchedOn.reading? (.reading "Tag1" 1 5) related = some (.int 0) ∧
      ∀ st, (⟨[], [switchedLamp], [], .single, none, 0⟩ : Selector).trySimple (.reading "Tag1" 1 5) related st =
        (⟨[], [], [], .single, none, 0⟩ : Selector).trySimple (.reading "Tag1" 1 5) related st := by
  obtain ⟨before, after, related, hsplit, -, -, -, hreading, -, hsimple, -⟩ :=
    @prerequisites_see_recent [.reading "Tag6" 1 0] [.reading "Tag6" 0 5] (.reading "Tag1" 1 5) (by decide)
  have hfits : SourceKind.digital.fits (some "DIGITALDATA") = true := by decide +kernel
  have hrecent : switchedOn.recent? (.reading "Tag1" 1 5)
      ([.reading "Tag6" 1 0] ++ [.reading "Tag6" 0 5]) = some (.int 0) := by
    simp [Prerequisite.recent?, Prerequisite.lastAmong, switchedOn, Sample.reading, Row.value?, hfits]
  have hunmet : switchedLamp.Unmet (.reading "Tag1" 1 5)
      ([.reading "Tag6" 1 0] ++ [.reading "Tag6" 0 5]) := by
    refine ⟨switchedOn, rfl, ?_⟩
    rintro ⟨v, hv, htrue⟩
    obtain rfl := Option.some.inj (hrecent.symm.trans hv)
    have hfalse : switchedOn.condition.eval (.int 0) switchedOn.value.datum = .ok false := by
      decide +kernel
    rw [hfalse] at htrue
    cases htrue
  exact ⟨before, after, related, hsplit, (hreading _).trans hrecent,
    fun st => (hsimple _ hunmet).2 ⟨[], [switchedLamp], [], .single, none, 0⟩ [] [] st rfl⟩

end FaultDesk
