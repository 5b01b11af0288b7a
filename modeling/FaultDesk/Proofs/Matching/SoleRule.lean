import Mathlib.Data.List.DropRight
import FaultDesk.Proofs.Matching.Sightings

/-!
The exact meaning of a gated rule that is the only one for its tag: its timer at a unit runs since
the first sample of the unbroken block of true samples that ends at the latest one, so the rule
matches where that block has lasted long enough. Samples that the rule does not look at do not break
a block, and times may go back.
-/

namespace FaultDesk

/-- Whether the condition of a rule is true at a sample. -/
def Rule.trueAt (r : Rule) (s : Sample) : Bool := decide (r.holdsFor s.value = .ok true)

/-- The samples of a unit that a rule looks at. -/
def Rule.seen (r : Rule) (unit : String) (calls : List (Sample × List Sample)) : List Sample :=
  (calls.map (·.1)).filter (r.sees unit)

/-- The longest block of samples of a unit that ends at the latest one and on all of which the
condition of a rule is true. -/
def Rule.trueBlock (r : Rule) (unit : String) (calls : List (Sample × List Sample)) : List Sample :=
  (r.seen unit calls).rtakeWhile r.trueAt

theorem Rule.trueBlock_unseen {r : Rule} {unit : String} {c : Sample × List Sample}
    (hc : r.sees unit c.1 = false) (calls : List (Sample × List Sample)) :
    r.trueBlock unit (calls ++ [c]) = r.trueBlock unit calls := by
  simp [Rule.trueBlock, Rule.seen, hc]

theorem Rule.trueBlock_seen {r : Rule} {unit : String} {c : Sample × List Sample}
    (hc : r.sees unit c.1 = true) (calls : List (Sample × List Sample)) :
    r.trueBlock unit (calls ++ [c]) =
      if r.trueAt c.1 then r.trueBlock unit calls ++ [c.1] else [] := by
  have hseen : r.seen unit (calls ++ [c]) = r.seen unit calls ++ [c.1] := by
    simp [Rule.seen, hc]
  rw [Rule.trueBlock, hseen, List.rtakeWhile_concat]
  rfl

theorem Rule.watches_tag {r : Rule} {s : Sample} (h : r.watches s = true) : r.tag = s.tag := by
  simp only [Rule.watches, Bool.and_eq_true, beq_iff_eq] at h
  exact h.1.2

section Sole

variable {before after : List Rule} {r : Rule} {s : Sample} {related : List Sample} {t : Timers}

/-- Samples that the sole rule of a tag looks at are left to it. -/
theorem firstMatch_sole (hsole : ∀ q ∈ before ++ after, q.tag ≠ r.tag)
    (hw : r.watches s = true) :
    (firstMatch s related (before ++ r :: after) t).2 = (r.verdict s related t).2 ∧
      ((firstMatch s related (before ++ r :: after) t).1 = some (before.length, r) ↔
        (r.verdict s related t).1 = .ok true) := by
  have hother : ∀ q ∈ before ++ after, q.watches s = false := by
    intro q hq
    by_contra hnot
    have htag := Rule.watches_tag (s := s) (by simpa using hnot)
    exact hsole q hq (htag.trans (Rule.watches_tag hw).symm)
  have hbefore : ∀ q ∈ before, q.watches s = false :=
    fun q hq => hother q (List.mem_append_left after hq)
  have hafter : ∀ q ∈ after, q.watches s = false :=
    fun q hq => hother q (List.mem_append_right before hq)
  unfold firstMatch
  rw [matchFrom_append, matchFrom_unwatched hbefore]
  cases hv : r.verdict s related t with
  | mk verdict u =>
    rcases verdict with e | _ | _
    · simp [matchFrom, hw, hv, matchFrom_unwatched hafter]
    · simp [matchFrom, hw, hv, matchFrom_unwatched hafter]
    · simp [matchFrom, hw, hv]

/-- Other samples leave the timer of the sole rule alone. -/
theorem firstMatch_sole_other (hsole : ∀ q ∈ before ++ after, q.tag ≠ r.tag) {unit : String}
    {key : TimerKey} (hk : r.timerKey unit = .ok key) (hs : r.sees unit s = false) :
    (firstMatch s related (before ++ r :: after) t).2.find? key = t.find? key := by
  refine (firstMatch_moves s related (before ++ r :: after) t).find?_other ?_
  rintro ⟨q, hq, hw, hqk⟩
  obtain ⟨hunit, htag⟩ := Rule.timerKey_fields hk
  obtain ⟨hqunit, hqtag⟩ := Rule.timerKey_fields hqk
  have hsame : q = r := by
    rcases List.mem_append.mp hq with hmem | hmem
    · exact absurd (hqtag.symm.trans htag) (hsole q (List.mem_append_left after hmem))
    · rcases List.mem_cons.mp hmem with heq | hmem
      · exact heq
      · exact absurd (hqtag.symm.trans htag) (hsole q (List.mem_append_right before hmem))
  subst q
  have hsees : r.sees unit s = true := by simp [Rule.sees, hw, ← hqunit, hunit]
  rw [hsees] at hs
  exact absurd hs (by decide)

/-- What a sample does to the record of the sole rule of a tag, on records that never fail. -/
theorem find?_firstMatch_sight {unit : String} {key : TimerKey}
    (hsole : ∀ q ∈ before ++ after, q.tag ≠ r.tag) (hr : t.Reliable) (hg : r.gated = true)
    (hk : r.timerKey unit = .ok key) (hdate : s.Dated) :
    (firstMatch s related (before ++ r :: after) t).2.find? key =
      tick (fun i => t.kept (.utc i)) (t.find? key) (s, r.sight unit (s, related)) := by
  cases hsees : r.sees unit s with
  | false =>
    rw [firstMatch_sole_other hsole hk hsees, Rule.sight_unseen hsees]
    rfl
  | true =>
    rw [(firstMatch_sole hsole (Rule.sees_iff.mp hsees).2).1]
    exact Rule.find?_verdict_sight hr hg hk hsees hdate

theorem Rule.sight_without_prerequisite {unit : String} {b : Bool} (hpre : r.prerequisite = none)
    (hsees : r.sees unit s = true) :
    r.sight unit (s, related) = some b ↔ r.holdsFor s.value = .ok b := by
  have hholds : r.prerequisiteHolds s related = .ok true := by
    unfold Rule.prerequisiteHolds
    rw [hpre]
  simp [Rule.sight_eq_some_iff, hsees, hholds]

/-- The sole rule of a tag matches where its timer, once asked, has lasted long enough. -/
theorem Rule.verdict_true_iff {key : TimerKey} {d : Duration} (hr : t.Reliable)
    (hd : r.duration = some d) (hinstant : d.isInstant = false) (hpre : r.prerequisite = none)
    (hk : r.timerKey s.unit = .ok key) (hsees : r.sees s.unit s = true) (hdate : s.Dated)
    {start : Option Instant} (hf : t.find? key = start.map fun i => t.kept (.utc i)) :
    (r.verdict s related t).1 = .ok true ↔
      r.holdsFor s.value = .ok true ∧
        ∃ w, d.span = .ok w ∧ w ≤ s.time - start.getD s.time := by
  have hsince : (t.find? key).elim (.utc s.time) t.recalled = .utc (start.getD s.time) := by
    rw [hf]
    cases start with
    | none => rfl
    | some i => exact t.recalled_kept_utc i
  rw [Rule.verdict_true_sight_iff hr hd hinstant hk hsees hdate,
    Rule.sight_without_prerequisite hpre hsees, hsince, Timers.lasted_utc_iff hdate]

/-- What a sample does to the timer of the sole rule of a tag. -/
theorem find?_firstMatch_sole {unit : String} {key : TimerKey}
    (hsole : ∀ q ∈ before ++ after, q.tag ≠ r.tag) (hr : t.Reliable) (hg : r.gated = true)
    (hpre : r.prerequisite = none) (hk : r.timerKey unit = .ok key) (hdate : s.Dated)
    (hs : r.sees unit s = true) (heval : ∃ b, r.holdsFor s.value = .ok b) :
    (firstMatch s related (before ++ r :: after) t).2.find? key =
      if r.trueAt s then some ((t.find? key).getD (t.kept (.utc s.time))) else none := by
  obtain ⟨b, hb⟩ := heval
  have htrue : r.trueAt s = b := by simp [Rule.trueAt, hb]
  have hsight : r.sight unit (s, related) = some b :=
    (Rule.sight_without_prerequisite hpre hs).mpr hb
  rw [find?_firstMatch_sight hsole hr hg hk hdate, hsight, htrue]
  cases b <;> rfl

variable {calls : List (Sample × List Sample)} {durable : Bool}

theorem recordsAfter_kept (rules : List Rule) (calls : List (Sample × List Sample)) (t : Timers)
    (n : Nat) (s : Stamp) : (recordsAfter rules calls t n).kept s = t.kept s :=
  Timers.kept_congr (recordsAfter_moves rules calls t (Nat.zero_le n)).durable_eq s

theorem recordsAfter_recalled (rules : List Rule) (calls : List (Sample × List Sample)) (t : Timers)
    (n : Nat) (s : Stamp) : (recordsAfter rules calls t n).recalled s = t.recalled s :=
  Timers.recalled_congr (recordsAfter_moves rules calls t (Nat.zero_le n)).durable_eq s

/-- The timer of the sole rule of a tag runs since the first sample of the block. -/
theorem find?_recordsAfter_sole {unit : String} {key : TimerKey}
    (hsole : ∀ q ∈ before ++ after, q.tag ≠ r.tag) (hg : r.gated = true)
    (hpre : r.prerequisite = none) (hk : r.timerKey unit = .ok key)
    (hdated : ∀ c ∈ calls, c.1.Dated)
    (heval : ∀ c ∈ calls, r.watches c.1 = true → ∃ b, r.holdsFor c.1.value = .ok b)
    {n : Nat} (hn : n ≤ calls.length) :
    (recordsAfter (before ++ r :: after) calls (.empty durable) n).find? key =
      (r.trueBlock unit (calls.take n)).head?.map fun s =>
        (Timers.empty durable).kept (.utc s.time) := by
  induction n with
  | zero => rfl
  | succ n ih =>
    have hlt : n < calls.length := hn
    have hmem : calls[n] ∈ calls := List.getElem_mem hlt
    rw [List.take_succ_eq_append_getElem hlt, recordsAfter_succ (List.getElem?_eq_getElem hlt)]
    cases hs : r.sees unit calls[n].1 with
    | false => rw [firstMatch_sole_other hsole hk hs, Rule.trueBlock_unseen hs, ih (by omega)]
    | true =>
      have hw : r.watches calls[n].1 = true := by
        simp only [Rule.sees, Bool.and_eq_true] at hs
        exact hs.2
      have hr : (recordsAfter (before ++ r :: after) calls (.empty durable) n).Reliable :=
        recordsAfter_reliable (Timers.empty_reliable durable) n
      rw [find?_firstMatch_sole hsole hr hg hpre hk (hdated _ hmem) hs (heval _ hmem hw),
        Rule.trueBlock_seen hs, ih (by omega), recordsAfter_kept]
      cases r.trueAt calls[n].1 with
      | false => rfl
      | true => cases hblock : (r.trueBlock unit (calls.take n)).head? <;> simp [hblock]

end Sole

/-- The sole rule of a tag, gated and without a prerequisite, matches a sample exactly if it looks
at it, its condition is true there, and the time since the first sample of the block that ends there
reaches the duration. -/
theorem sole_rule_matches_iff {before after : List Rule} {r : Rule} {d : Duration}
    {calls : List (Sample × List Sample)} {durable : Bool} {n : Nat} (hn : n < calls.length)
    (hsole : ∀ q ∈ before ++ after, q.tag ≠ r.tag) (hd : r.duration = some d)
    (hinstant : d.isInstant = false) (hpre : r.prerequisite = none)
    (hdated : ∀ c ∈ calls, c.1.Dated)
    (heval : ∀ c ∈ calls, r.watches c.1 = true → ∃ b, r.holdsFor c.1.value = .ok b) :
    (firstMatch calls[n].1 calls[n].2 (before ++ r :: after)
        (recordsAfter (before ++ r :: after) calls (.empty durable) n)).1 =
          some (before.length, r) ↔
      r.watches calls[n].1 = true ∧ r.holdsFor calls[n].1.value = .ok true ∧
        ∃ first w, (r.trueBlock calls[n].1.unit (calls.take (n + 1))).head? = some first ∧
          d.span = .ok w ∧ w ≤ calls[n].1.time - first.time := by
  have hg : r.gated = true := Rule.gated_iff.mpr ⟨d, hd, hinstant⟩
  have hmem : calls[n] ∈ calls := List.getElem_mem hn
  cases hw : r.watches calls[n].1 with
  | false =>
    constructor
    · intro h
      have hwatched := (firstMatch_some h).2.1
      rw [hw] at hwatched
      exact absurd hwatched (by decide)
    · rintro ⟨h, -⟩
      exact absurd h (by decide)
  | true =>
    obtain ⟨b, hb⟩ := heval calls[n] hmem hw
    obtain ⟨key, hk⟩ := Rule.timerKey_of_holdsFor hb calls[n].1.unit
    let u := recordsAfter (before ++ r :: after) calls (.empty durable) n
    let block := r.trueBlock calls[n].1.unit (calls.take n)
    have hr : u.Reliable := recordsAfter_reliable (Timers.empty_reliable durable) n
    have hf : u.find? key = (block.head?.map (·.time)).map fun i => u.kept (.utc i) := by
      have hrun := @find?_recordsAfter_sole _ _ _ _ durable _ _ hsole hg hpre hk hdated heval n
        (Nat.le_of_lt hn)
      simpa [u, block, recordsAfter_kept, Function.comp_def] using hrun
    have hsees : r.sees calls[n].1.unit calls[n].1 = true := by simp [Rule.sees, hw]
    have hasked : (r.verdict calls[n].1 calls[n].2 u).1 = .ok true ↔ _ :=
      Rule.verdict_true_iff hr hd hinstant hpre hk hsees (hdated calls[n] hmem) hf
    rw [(firstMatch_sole hsole hw).2, hasked, List.take_succ_eq_append_getElem hn,
      Rule.trueBlock_seen hsees]
    cases b with
    | false => simp [hb]
    | true =>
      have htrue : r.trueAt calls[n].1 = true := by simp [Rule.trueAt, hb]
      have hfirst : (block ++ [calls[n].1]).head? = some (block.head?.getD calls[n].1) := by
        cases hblock : block.head? <;> simp [hblock]
      have htime : (block.head?.map (·.time)).getD calls[n].1.time =
          (block.head?.getD calls[n].1).time := by
        cases block.head? <;> rfl
      simp only [htrue, ↓reduceIte, hb, true_and]
      change _ ↔ ∃ first w, (block ++ [calls[n].1]).head? = some first ∧ _
      rw [hfirst, htime]
      simp

/-- A reading of another tag does not break a block of ten minutes. -/
theorem sole_rule_matches_tenth_minute :
    (firstMatch (.reading "Tag1" 1 10) [] [.reads "Tag2" 1 0, .reads "Tag1" 1 10]
      (recordsAfter [.reads "Tag2" 1 0, .reads "Tag1" 1 10]
        [(.reading "Tag1" 1 0, []), (.reading "Tag2" 1 5, []), (.reading "Tag1" 1 10, [])]
        (.empty true) 2)).1 = some (1, .reads "Tag1" 1 10) := by
  let calls : List (Sample × List Sample) :=
    [(.reading "Tag1" 1 0, []), (.reading "Tag2" 1 5, []), (.reading "Tag1" 1 10, [])]
  let r := Rule.reads "Tag1" 1 10
  have heval : ∀ c ∈ calls, r.watches c.1 = true → ∃ b, r.holdsFor c.1.value = .ok b := by
    have hread : ∀ c ∈ calls, r.holdsFor c.1.value = .ok true := by decide +kernel
    intro c hc _
    exact ⟨true, hread c hc⟩
  have hstart : ((r.trueBlock "101" calls).head?.map (·.time)) = some 0 := by decide +kernel
  obtain ⟨first, hfirst, htime⟩ := Option.map_eq_some_iff.mp hstart
  refine (@sole_rule_matches_iff [.reads "Tag2" 1 0] [] r _ calls true 2 (by decide) (by decide) rfl
    (by decide +kernel) rfl (by decide) heval).mpr ?_
  refine ⟨by decide +kernel, by decide +kernel, first, 600000000, hfirst, by decide +kernel, ?_⟩
  rw [htime]
  decide

end FaultDesk
