import Mathlib.Data.List.Induction
import FaultDesk.Proofs.Matching.Calls

/-!
What a gated rule sees in one sample after another, and what its timer makes of it. A sample at which
the condition is seen true starts the timer or leaves it running, one at which it is seen false drops
it, and one at which nothing is seen leaves it alone.
-/

namespace FaultDesk

/-- Whether a rule looks at a sample as one of a unit. -/
def Rule.sees (r : Rule) (unit : String) (s : Sample) : Bool := s.unit == unit && r.watches s

/-- What a rule sees in a sample of a unit: whether its condition is true there. It sees nothing when
it does not look at the sample, when its prerequisite does not hold, or when either cannot be
evaluated. -/
def Rule.sight (r : Rule) (unit : String) (c : Sample × List Sample) : Option Bool :=
  if r.sees unit c.1 then
    match r.prerequisiteHolds c.1 c.2, r.holdsFor c.1.value with
    | .ok true, .ok b => some b
    | _, _ => none
  else none

/-- What becomes of a start at a sample with what is seen there. -/
def tick (keep : Instant → Stamp) (start : Option Stamp) (e : Sample × Option Bool) : Option Stamp :=
  match e.2 with
  | none => start
  | some true => some (start.getD (keep e.1.time))
  | some false => none

/-- The start of a timer after one sample after another. -/
def ticked (keep : Instant → Stamp) (start : Option Stamp) (sightings : List (Sample × Option Bool)) :
    Option Stamp :=
  sightings.foldl (tick keep) start

section Ticked

variable {keep : Instant → Stamp} {start : Option Stamp} {x : Stamp}
  {front back sightings : List (Sample × Option Bool)}

theorem ticked_append : ticked keep start (front ++ back) = ticked keep (ticked keep start front) back :=
  List.foldl_append ..

theorem ticked_unseen (h : ∀ e ∈ sightings, e.2 = none) : ticked keep start sightings = start := by
  induction sightings generalizing start with
  | nil => rfl
  | cons e rest ih =>
    have he : tick keep start e = start := by simp [tick, h e List.mem_cons_self]
    rw [ticked, List.foldl_cons, he]
    exact ih fun e' he' => h e' (List.mem_cons_of_mem e he')

/-- A timer that runs has been started at one of the samples, or has run all the time; and since then
the condition has not been seen false. -/
theorem ticked_eq_some (h : ticked keep start sightings = some x) :
    ∃ front since, sightings = front ++ since ∧ (∀ e ∈ since, e.2 ≠ some false) ∧
      (front = [] ∧ start = some x ∨
        ∃ s rest, since = (s, some true) :: rest ∧ x = keep s.time ∧
          ticked keep start front = none) := by
  induction sightings using List.reverseRecOn generalizing x with
  | nil => exact ⟨[], [], rfl, by simp, Or.inl ⟨rfl, h⟩⟩
  | append_singleton before e ih =>
    have hgoesOn (hlast : ticked keep start before = some x) (he : e.2 ≠ some false) :
        ∃ front since, before ++ [e] = front ++ since ∧ (∀ e ∈ since, e.2 ≠ some false) ∧
          (front = [] ∧ start = some x ∨
            ∃ s rest, since = (s, some true) :: rest ∧ x = keep s.time ∧
              ticked keep start front = none) := by
      obtain ⟨front, since, hsplit, hsince, hstart⟩ := ih hlast
      refine ⟨front, since ++ [e], by rw [hsplit, List.append_assoc], ?_, ?_⟩
      · intro e' he'
        rcases List.mem_append.mp he' with he' | he'
        · exact hsince e' he'
        · rw [List.mem_singleton.mp he']
          exact he
      · refine hstart.imp_right ?_
        rintro ⟨s, rest, rfl, hx, hnone⟩
        exact ⟨s, rest ++ [e], rfl, hx, hnone⟩
    obtain ⟨s, sight⟩ := e
    rw [ticked_append] at h
    change tick keep (ticked keep start before) (s, sight) = some x at h
    cases sight with
    | none => exact hgoesOn h (by simp)
    | some seen =>
      cases seen with
      | false => cases h
      | true =>
        cases hlast : ticked keep start before with
        | some y =>
          rw [hlast] at h
          cases h
          exact hgoesOn hlast (by simp)
        | none =>
          rw [hlast] at h
          cases h
          exact ⟨before, [(s, some true)], rfl, by simp, Or.inr ⟨s, [], rfl, rfl, hlast⟩⟩

end Ticked

/-! ## The verdict of a rule on what it sees -/

section Verdict

variable {r : Rule} {unit : String} {s : Sample} {related : List Sample} {t : Timers} {key : TimerKey}
  {b : Bool}

theorem Rule.sees_iff : r.sees unit s = true ↔ s.unit = unit ∧ r.watches s = true := by
  simp [Rule.sees]

theorem Rule.sight_unseen (h : r.sees unit s = false) : r.sight unit (s, related) = none := by
  simp [Rule.sight, h]

theorem Rule.sight_eq_some_iff : r.sight unit (s, related) = some b ↔
    r.sees unit s = true ∧ r.prerequisiteHolds s related = .ok true ∧ r.holdsFor s.value = .ok b := by
  unfold Rule.sight
  dsimp only
  cases hsees : r.sees unit s with
  | false => simp
  | true =>
    rw [if_pos rfl]
    split
    next hpre heval => simp [hpre, heval]
    next hnone =>
      constructor
      · intro h
        cases h
      · rintro ⟨-, hpre, heval⟩
        exact absurd heval (hnone b hpre)

/-- A rule that sees nothing in a sample that it looks at leaves the timers alone. -/
theorem Rule.verdict_unseen (hsees : r.sees unit s = true) (h : r.sight unit (s, related) = none) :
    (r.verdict s related t).2 = t ∧ (r.verdict s related t).1 ≠ .ok true := by
  have hnot : ∀ b, ¬ (r.prerequisiteHolds s related = .ok true ∧ r.holdsFor s.value = .ok b) := by
    rintro b ⟨hpre, heval⟩
    rw [Rule.sight_eq_some_iff.mpr ⟨hsees, hpre, heval⟩] at h
    cases h
  unfold Rule.verdict
  split
  next => exact ⟨rfl, by simp⟩
  next => exact ⟨rfl, by simp⟩
  next hpre =>
    split
    next => exact ⟨rfl, by simp⟩
    next heval => exact absurd ⟨hpre, heval⟩ (hnot false)
    next heval => exact absurd ⟨hpre, heval⟩ (hnot true)

theorem Rule.verdict_seen_false (hg : r.gated = true) (hk : r.timerKey unit = .ok key)
    (h : r.sight unit (s, related) = some false) :
    r.verdict s related t = (.ok false, t.clear key) := by
  obtain ⟨hsees, hpre, heval⟩ := Rule.sight_eq_some_iff.mp h
  simp [Rule.verdict, Rule.clearTimer, hpre, heval, hg, (Rule.sees_iff.mp hsees).1, hk]

theorem Rule.verdict_seen_true (hg : r.gated = true) (hk : r.timerKey unit = .ok key)
    (h : r.sight unit (s, related) = some true) :
    r.verdict s related t = t.sustained key r.duration (.utc s.time) none := by
  obtain ⟨hsees, hpre, heval⟩ := Rule.sight_eq_some_iff.mp h
  simp [Rule.verdict, Rule.askTimer, hpre, heval, hg, (Rule.sees_iff.mp hsees).1, hk]

theorem Rule.find?_verdict_sight (hr : t.Reliable) (hg : r.gated = true)
    (hk : r.timerKey unit = .ok key) (hsees : r.sees unit s = true) (hdate : s.Dated) :
    (r.verdict s related t).2.find? key =
      tick (fun i => t.kept (.utc i)) (t.find? key) (s, r.sight unit (s, related)) := by
  obtain ⟨d, hd, hinstant⟩ := Rule.gated_iff.mp hg
  cases h : r.sight unit (s, related) with
  | none => rw [(Rule.verdict_unseen hsees h).1, tick]
  | some b =>
    cases b with
    | false => rw [Rule.verdict_seen_false hg hk h, hr.find?_clear, if_pos rfl, tick]
    | true =>
      rw [Rule.verdict_seen_true hg hk h, hd]
      cases hf : t.find? key with
      | some start =>
        rw [hr.sustained_running hf hinstant]
        exact hf
      | none =>
        have hi : ((none : Option Stamp).getD (.utc s.time)).instant? = some s.time :=
          Stamp.instant?_utc hdate
        rw [hr.sustained_fresh hf hinstant hi, Timers.find?_written, if_pos rfl]
        rfl

/-- A gated rule matches where it sees its condition true and the record says that it has been long
enough, or where there is none and it need not have been. -/
theorem Rule.verdict_true_sight_iff {d : Duration} (hr : t.Reliable) (hd : r.duration = some d)
    (hinstant : d.isInstant = false) (hk : r.timerKey unit = .ok key) (hsees : r.sees unit s = true)
    (hdate : s.Dated) :
    (r.verdict s related t).1 = .ok true ↔ r.sight unit (s, related) = some true ∧
      Timers.lasted d ((t.find? key).elim (.utc s.time) t.recalled) (.utc s.time) = .ok true := by
  have hg : r.gated = true := Rule.gated_iff.mpr ⟨d, hd, hinstant⟩
  have hasked : (t.sustained key (some d) (.utc s.time) none).1 =
      Timers.lasted d ((t.find? key).elim (.utc s.time) t.recalled) (.utc s.time) := by
    cases hf : t.find? key with
    | some start => rw [hr.sustained_running hf hinstant, Option.elim_some]
    | none =>
      have hi : ((none : Option Stamp).getD (.utc s.time)).instant? = some s.time :=
        Stamp.instant?_utc hdate
      rw [hr.sustained_fresh hf hinstant hi, Option.elim_none]
  cases h : r.sight unit (s, related) with
  | none => simp [(Rule.verdict_unseen (t := t) hsees h).2]
  | some seen =>
    cases seen with
    | false => simp [Rule.verdict_seen_false hg hk h]
    | true =>
      rw [Rule.verdict_seen_true hg hk h, hd, hasked]
      simp

end Verdict

end FaultDesk
