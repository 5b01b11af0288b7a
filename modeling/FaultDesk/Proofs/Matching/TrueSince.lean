import Mathlib.Data.List.DropRight
import FaultDesk.Proofs.Matching.Calls

/-!
What a running timer says about the samples since its start. A gated rule that looks at a sample and
sees its condition false has its timer dropped; a sample that passes the rule over leaves the timer
alone. So a match means that the condition was true at every sample since the start of the timer
except perhaps at those that passed the rule over.
-/

namespace FaultDesk

/-- The timer of a key runs after so many samples, was started at the `j`-th and not again since. -/
structure RunsSince (rules : List Rule) (calls : List (Sample × List Sample)) (t : Timers)
    (key : TimerKey) (j n : Nat) : Prop where
  running : (recordsAfter rules calls t n).find? key ≠ none
  started :
    (recordsAfter rules calls t j).starts key < (recordsAfter rules calls t (j + 1)).starts key
  kept : (recordsAfter rules calls t n).starts key = (recordsAfter rules calls t (j + 1)).starts key

/-- A sample passes over the rule at a position when an earlier rule matches, when the prerequisite
of the rule does not hold, or when its condition cannot be evaluated. -/
def PassedOver (rules : List Rule) (p : Nat) (r : Rule) (c : Sample × List Sample) (t : Timers) :
    Prop :=
  (firstMatch c.1 c.2 (rules.take p) t).1 ≠ none ∨ r.prerequisiteHolds c.1 c.2 ≠ .ok true ∨
    ∀ b, r.holdsFor c.1.value ≠ .ok b

/-- The sample at a place is one of the unit that a rule looks at, passed to the rules behind the
`j`-th sample and up to the `n`-th. -/
structure SeenSince (calls : List (Sample × List Sample)) (unit : String) (r : Rule) (j n k : Nat)
    (c : Sample × List Sample) : Prop where
  call : calls[k]? = some c
  after : j < k
  upTo : k ≤ n
  unit_eq : c.1.unit = unit
  watched : r.watches c.1 = true

/-- A counter that has grown has grown for a last time. -/
theorem exists_last_growth {f : Nat → Nat} (hf : ∀ i, f i ≤ f (i + 1)) {n : Nat}
    (h : f 0 < f n) : ∃ j, j < n ∧ f j < f (j + 1) ∧ f n = f (j + 1) := by
  induction n with
  | zero => omega
  | succ n ih =>
    have hstep := hf n
    rcases Nat.lt_or_ge (f n) (f (n + 1)) with hlt | hge
    · exact ⟨n, by omega, hlt, rfl⟩
    · obtain ⟨j, hj, hgrow, hlast⟩ := ih (by omega)
      exact ⟨j, by omega, hgrow, by omega⟩

section Since

variable {rules : List Rule} {calls : List (Sample × List Sample)} {t : Timers}

theorem runsSince_exists {key : TimerKey} {n : Nat} (hempty : t.find? key = none)
    (hrun : (recordsAfter rules calls t n).find? key ≠ none) :
    ∃ j, j < n ∧ RunsSince rules calls t key j n := by
  have hmoves := recordsAfter_moves rules calls t (Nat.zero_le n)
  have hle := hmoves.starts_le key
  have hgrown :
      (recordsAfter rules calls t 0).starts key < (recordsAfter rules calls t n).starts key := by
    by_contra hnot
    exact hrun (hmoves.find?_eq_none hempty (by omega))
  obtain ⟨j, hj, hstarted, hkept⟩ := exists_last_growth
    (f := fun i => (recordsAfter rules calls t i).starts key)
    (fun i => (recordsAfter_moves rules calls t (Nat.le_succ i)).starts_le key) hgrown
  exact ⟨j, hj, hrun, hstarted, hkept⟩

/-- A gated rule that looks at a sample and sees its condition false has no record after the call,
unless the timer has been started anew in the call. -/
theorem firstMatch_drops {s : Sample} {related : List Sample} {p : Nat} {r : Rule} {key : TimerKey}
    (hr : t.Reliable) (hp : rules[p]? = some r) (hw : r.watches s = true) (hg : r.gated = true)
    (hk : r.timerKey s.unit = .ok key) (hover : ¬ PassedOver rules p r (s, related) t)
    (hf : r.holdsFor s.value = .ok false)
    (hs : (firstMatch s related rules t).2.starts key = t.starts key) :
    (firstMatch s related rules t).2.find? key = none := by
  have hnone : (firstMatch s related (rules.take p) t).1 = none := by
    by_contra hnot
    exact hover (Or.inl hnot)
  have hpre : r.prerequisiteHolds s related = .ok true := by
    by_contra hnot
    exact hover (Or.inr (Or.inl hnot))
  let u := (firstMatch s related (rules.take p) t).2
  have hbefore : matchFrom s related 0 (rules.take p) t = (none, u) := Prod.ext hnone rfl
  have hmoves : Timers.Moves (fun _ => True) t u :=
    (firstMatch_moves s related (rules.take p) t).mono fun _ _ => trivial
  obtain ⟨hverdict, hdropped⟩ :=
    Rule.find?_of_verdict_false (hmoves.reliable hr) hg hk hpre hf
  have hsplit := eq_take_append_cons_drop hp
  let v := (r.verdict s related u).2
  have hpair : r.verdict s related u = (.ok false, v) := Prod.ext hverdict rfl
  have hafter : (firstMatch s related rules t).2 =
      (matchFrom s related (0 + (rules.take p).length + 1) (rules.drop (p + 1)) v).2 := by
    unfold firstMatch
    conv_lhs => rw [hsplit]
    rw [matchFrom_append, hbefore]
    simp only [matchFrom, hw, ↓reduceIte, hpair]
  have hrest := matchFrom_moves s related (0 + (rules.take p).length + 1) (rules.drop (p + 1)) v
  have h1 := hmoves.starts_le key
  have h2 : u.starts key ≤ v.starts key := (r.verdict_moves s related u).starts_le key
  have h3 := hrest.starts_le key
  rw [hafter] at hs ⊢
  exact hrest.find?_eq_none hdropped (by omega)

/-- While a timer runs on, a gated rule of its key sees its condition true at every sample that does
not pass it over. -/
theorem RunsSince.holds {key : TimerKey} {j n k p : Nat} {r : Rule} {c : Sample × List Sample}
    (hrun : RunsSince rules calls t key j n) (hr : t.Reliable) (hp : rules[p]? = some r)
    (hg : r.gated = true) (hj : j < k) (hn : k < n) (hc : calls[k]? = some c)
    (hw : r.watches c.1 = true) (hk : r.timerKey c.1.unit = .ok key)
    (hover : ¬ PassedOver rules p r c (recordsAfter rules calls t k)) :
    r.holdsFor c.1.value = .ok true := by
  have hevaluated : ∃ b, r.holdsFor c.1.value = .ok b := by
    by_contra hnot
    exact hover (Or.inr (Or.inr fun b hb => hnot ⟨b, hb⟩))
  obtain ⟨b, hb⟩ := hevaluated
  cases b with
  | true => exact hb
  | false =>
    exfalso
    have h1 := (recordsAfter_moves rules calls t (show j + 1 ≤ k by omega)).starts_le key
    have h2 := (recordsAfter_moves rules calls t (show k ≤ k + 1 by omega)).starts_le key
    have hlast := recordsAfter_moves rules calls t (show k + 1 ≤ n by omega)
    have h3 := hlast.starts_le key
    have hkept := hrun.kept
    have hgone := firstMatch_drops (recordsAfter_reliable hr k) hp hw hg hk hover hb
      (by rw [← recordsAfter_succ hc]; omega)
    rw [← recordsAfter_succ hc] at hgone
    exact hrun.running (hlast.find?_eq_none hgone (by omega))

end Since

/-- A gated rule that matches is judged by a timer that has been started once and runs on. -/
theorem runsSince_of_match {rules : List Rule} {calls : List (Sample × List Sample)}
    {durable : Bool} {n p : Nat} {r : Rule} (hn : n < calls.length) (hg : r.gated = true)
    (hm : (firstMatch calls[n].1 calls[n].2 rules
      (recordsAfter rules calls (.empty durable) n)).1 = some (p, r)) :
    ∃ key j, r.timerKey calls[n].1.unit = .ok key ∧ j ≤ n ∧
      RunsSince rules calls (.empty durable) key j (n + 1) := by
  obtain ⟨-, -, -, hverdict⟩ := firstMatch_some hm
  obtain ⟨-, -, key, hk, hsustained⟩ := Rule.of_verdict_true hg hverdict
  obtain ⟨d, hd, hinstant⟩ := Rule.gated_iff.mp hg
  rw [hd] at hsustained
  have hempty := Timers.empty_reliable durable
  have hbefore := (firstMatch_moves calls[n].1 calls[n].2 (rules.take p)
    (recordsAfter rules calls (.empty durable) n)).reliable (recordsAfter_reliable hempty n)
  obtain ⟨start, hstart⟩ := hbefore.find?_of_sustained hinstant hsustained
  rw [← recordsAfter_succ (List.getElem?_eq_getElem hn)] at hstart
  have hnone : (Timers.empty durable).find? key = none := rfl
  obtain ⟨j, hj, hrun⟩ := runsSince_exists hnone (by rw [hstart]; exact Option.some_ne_none start)
  exact ⟨key, j, hk, by omega, hrun⟩

/-- When a gated rule matches, its condition was true at every sample of the unit since the start of
the timer if and only if it was true at those of them that passed the rule over. -/
theorem gated_match_true_since_start_iff {rules : List Rule} {calls : List (Sample × List Sample)}
    {durable : Bool} {n p : Nat} {r : Rule} (hn : n < calls.length) (hg : r.gated = true)
    (hm : (firstMatch calls[n].1 calls[n].2 rules
      (recordsAfter rules calls (.empty durable) n)).1 = some (p, r)) :
    ∃ key j, r.timerKey calls[n].1.unit = .ok key ∧ j ≤ n ∧
      RunsSince rules calls (.empty durable) key j (n + 1) ∧
      (∀ k c, SeenSince calls calls[n].1.unit r j n k c →
        ¬ PassedOver rules p r c (recordsAfter rules calls (.empty durable) k) →
        r.holdsFor c.1.value = .ok true) ∧
      ((∀ k c, SeenSince calls calls[n].1.unit r j n k c → r.holdsFor c.1.value = .ok true) ↔
        ∀ k c, SeenSince calls calls[n].1.unit r j n k c →
          PassedOver rules p r c (recordsAfter rules calls (.empty durable) k) →
          r.holdsFor c.1.value = .ok true) := by
  obtain ⟨key, j, hk, hj, hrun⟩ := runsSince_of_match hn hg hm
  have hp := (firstMatch_some hm).1
  have hreached : ∀ k c, SeenSince calls calls[n].1.unit r j n k c →
      ¬ PassedOver rules p r c (recordsAfter rules calls (.empty durable) k) →
      r.holdsFor c.1.value = .ok true := by
    intro k c hs hover
    have hkn := hs.upTo
    exact hrun.holds (Timers.empty_reliable durable) hp hg hs.after (by omega) hs.call hs.watched
      (by rw [hs.unit_eq]; exact hk) hover
  refine ⟨key, j, hk, hj, hrun, hreached, ?_, ?_⟩
  · intro hall k c hs _
    exact hall k c hs
  · intro hover k c hs
    by_cases h : PassedOver rules p r c (recordsAfter rules calls (.empty durable) k)
    · exact hover k c hs h
    · exact hreached k c hs h

/-- Two rules on one tag, the first without a gate. -/
theorem gated_match_runs_since_start :
    ∃ key j, j ≤ 2 ∧ RunsSince [.reads "Tag1" 5 0, .reads "Tag1" 1 10]
      [(.reading "Tag1" 1 0, []), (.reading "Tag1" 1 5, []), (.reading "Tag1" 1 10, [])]
      (.empty true) key j 3 := by
  obtain ⟨key, j, -, hj, hrun, -⟩ :=
    @gated_match_true_since_start_iff [.reads "Tag1" 5 0, .reads "Tag1" 1 10]
      [(.reading "Tag1" 1 0, []), (.reading "Tag1" 1 5, []), (.reading "Tag1" 1 10, [])] true 2 1
      (.reads "Tag1" 1 10) (by decide) (by decide +kernel) (by decide +kernel)
  exact ⟨key, j, hj, hrun⟩

/-- A timer outlives a sample at which the condition of its rule is false, when that sample makes an
earlier rule match. -/
theorem gated_match_despite_false_sample :
    ∃ key, RunsSince [.reads "Tag1" 5 0, .reads "Tag1" 1 10]
        [(.reading "Tag1" 1 0, []), (.reading "Tag1" 5 5, []), (.reading "Tag1" 1 10, [])]
        (.empty true) key 0 3 ∧
      (firstMatch (.reading "Tag1" 1 10) [] [.reads "Tag1" 5 0, .reads "Tag1" 1 10]
        (recordsAfter [.reads "Tag1" 5 0, .reads "Tag1" 1 10]
          [(.reading "Tag1" 1 0, []), (.reading "Tag1" 5 5, []), (.reading "Tag1" 1 10, [])]
          (.empty true) 2)).1 = some (1, .reads "Tag1" 1 10) ∧
      (Rule.reads "Tag1" 1 10).watches (.reading "Tag1" 5 5) = true ∧
      (Rule.reads "Tag1" 1 10).holdsFor (Sample.reading "Tag1" 5 5).value = .ok false := by
  refine ⟨⟨"101", "Tag1", "1"⟩, ⟨?_, ?_, ?_⟩, ?_, ?_, ?_⟩ <;> decide +kernel

end FaultDesk
