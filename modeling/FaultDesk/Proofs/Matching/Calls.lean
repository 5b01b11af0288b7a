import FaultDesk.Matching
import FaultDesk.Proofs.Timer.Access

/-!
Simple rules over one sample after another: what a call of the rules does to the timers, which rule
it gives, and the records between two calls.
-/

namespace FaultDesk

/-- The time of a sample is one that the calendar has. -/
def Sample.Dated (s : Sample) : Prop := 0 ≤ s.time ∧ s.time < Instant.limit

instance (s : Sample) : Decidable s.Dated := inferInstanceAs (Decidable (_ ∧ _))

theorem Rule.timerKey_fields {r : Rule} {unit : String} {key : TimerKey}
    (h : r.timerKey unit = .ok key) : key.unit = unit ∧ key.tag = r.tag := by
  unfold Rule.timerKey TimerKey.ofValues at h
  cases hv : r.threshold.datum.normalText with
  | error e => simp [hv, Except.map] at h
  | ok v =>
    have hk : (⟨unit, r.tag, v⟩ : TimerKey) = key := by simpa [hv, Except.map, Datum.shown] using h
    subst key
    exact ⟨rfl, rfl⟩

/-- A threshold that counts as a number has a text in keys. -/
theorem Threshold.normalText_of_number {x : Threshold} {n : Option Double}
    (h : x.datum.number? = .ok n) : ∃ v, x.datum.normalText = .ok v := by
  cases x with
  | whole i =>
    unfold Threshold.datum Datum.number? at h
    unfold Threshold.datum Datum.normalText
    dsimp only at h ⊢
    generalize Double.ofInt i = d at h ⊢
    cases d with
    | infinite => simp [Datum.numberOfWhole] at h
    | finite => exact ⟨_, rfl⟩
    | nan => exact ⟨_, rfl⟩
  | real d => exact ⟨_, rfl⟩
  | text s => exact ⟨_, rfl⟩

/-- A threshold that can be compared with can stand in a key. -/
theorem Rule.timerKey_of_holdsFor {r : Rule} {v : Datum} {b : Bool} (h : r.holdsFor v = .ok b)
    (unit : String) : ∃ key, r.timerKey unit = .ok key := by
  have hnumber : ∃ n, r.threshold.datum.number? = .ok n := by
    unfold Rule.holdsFor Condition.eval at h
    cases ha : v.number? with
    | error e => simp [ha, bind, Except.bind] at h
    | ok a =>
      cases ht : r.threshold.datum.number? with
      | error e => simp [ha, ht, bind, Except.bind] at h
      | ok n => exact ⟨n, rfl⟩
  obtain ⟨n, hn⟩ := hnumber
  obtain ⟨w, hw⟩ := Threshold.normalText_of_number hn
  exact ⟨_, by rw [Rule.timerKey, TimerKey.ofValues, hw]; rfl⟩

/-! ## One rule -/

theorem Rule.clearTimer_moves (r : Rule) (unit : String) (t : Timers) :
    Timers.Moves (fun k => r.timerKey unit = .ok k) t (r.clearTimer unit t).2 := by
  unfold Rule.clearTimer
  split
  next => exact .refl t
  next k hk => exact (t.clear_moves k).mono fun _ he => by rw [he]; exact hk

theorem Rule.askTimer_moves (r : Rule) (s : Sample) (t : Timers) :
    Timers.Moves (fun k => r.timerKey s.unit = .ok k) t (r.askTimer s t).2 := by
  unfold Rule.askTimer
  split
  next => exact .refl t
  next k hk => exact (t.sustained_moves k _ _ _).mono fun _ he => by rw [he]; exact hk

theorem Rule.verdict_moves (r : Rule) (s : Sample) (related : List Sample) (t : Timers) :
    Timers.Moves (fun k => r.timerKey s.unit = .ok k) t (r.verdict s related t).2 := by
  have hclear := r.clearTimer_moves s.unit t
  unfold Rule.verdict
  split
  next => exact .refl t
  next => exact .refl t
  next =>
    split
    next => exact .refl t
    next =>
      split
      next =>
        split
        next hc => simpa [hc] using hclear
        next hc => simpa [hc] using hclear
      next => exact .refl t
    next =>
      split
      next => exact r.askTimer_moves s t
      next => exact .refl t

/-- A gated rule that sees its condition false has no record left. -/
theorem Rule.find?_of_verdict_false {r : Rule} {s : Sample} {related : List Sample} {t : Timers}
    (hr : t.Reliable) (hg : r.gated = true) {key : TimerKey} (hk : r.timerKey s.unit = .ok key)
    (hp : r.prerequisiteHolds s related = .ok true) (hf : r.holdsFor s.value = .ok false) :
    (r.verdict s related t).1 = .ok false ∧ (r.verdict s related t).2.find? key = none := by
  simp [Rule.verdict, Rule.clearTimer, hp, hf, hg, hk, hr.find?_clear]

theorem Rule.holdsFor_of_verdict_true {r : Rule} {s : Sample} {related : List Sample} {t : Timers}
    (h : (r.verdict s related t).1 = .ok true) : r.holdsFor s.value = .ok true := by
  unfold Rule.verdict at h
  split at h
  next => cases h
  next => cases h
  next =>
    split at h
    next => cases h
    next =>
      split at h
      next => split at h <;> cases h
      next => cases h
    next hholds => exact hholds

/-- What it takes for a gated rule to match. -/
theorem Rule.of_verdict_true {r : Rule} {s : Sample} {related : List Sample} {t u : Timers}
    (hg : r.gated = true) (h : r.verdict s related t = (.ok true, u)) :
    r.prerequisiteHolds s related = .ok true ∧ r.holdsFor s.value = .ok true ∧
      ∃ key, r.timerKey s.unit = .ok key ∧
        t.sustained key r.duration (.utc s.time) none = (.ok true, u) := by
  unfold Rule.verdict at h
  split at h
  next => simp at h
  next => simp at h
  next hp =>
    split at h
    next => simp at h
    next =>
      rw [if_pos hg] at h
      split at h
      next => simp at h
      next => simp at h
    next hf =>
      rw [if_pos hg] at h
      refine ⟨hp, hf, ?_⟩
      unfold Rule.askTimer at h
      split at h
      next => simp at h
      next key hk => exact ⟨key, hk, h⟩

theorem Rule.gated_iff {r : Rule} :
    r.gated = true ↔ ∃ d, r.duration = some d ∧ d.isInstant = false := by
  unfold Rule.gated
  split
  next h => simp [h]
  next d h => simp [h]

/-! ## The rules one after another -/

theorem eq_take_append_cons_drop {α : Type} {rules : List α} {p : Nat} {r : α}
    (hp : rules[p]? = some r) : rules = rules.take p ++ r :: rules.drop (p + 1) := by
  obtain ⟨hlen, hget⟩ := List.getElem?_eq_some_iff.mp hp
  rw [← hget, List.getElem_cons_drop, List.take_append_drop]

variable {s : Sample} {related : List Sample}

theorem matchFrom_append (n : Nat) (before after : List Rule) (t : Timers) :
    matchFrom s related n (before ++ after) t =
      match matchFrom s related n before t with
      | (some m, u) => (some m, u)
      | (none, u) => matchFrom s related (n + before.length) after u := by
  induction before generalizing n t with
  | nil => rfl
  | cons r rest ih =>
    have hlen : n + (r :: rest).length = n + 1 + rest.length := by
      simp only [List.length_cons]
      omega
    simp only [List.cons_append, matchFrom, hlen]
    split
    next =>
      split
      next => rfl
      next => exact ih (n + 1) _
    next => exact ih (n + 1) t

theorem matchFrom_unwatched {rules : List Rule} (hw : ∀ r ∈ rules, r.watches s = false) (n : Nat)
    (t : Timers) : matchFrom s related n rules t = (none, t) := by
  induction rules generalizing n with
  | nil => rfl
  | cons r rest ih =>
    simp only [matchFrom, hw r List.mem_cons_self, Bool.false_eq_true, ↓reduceIte]
    exact ih (fun q hq => hw q (List.mem_cons_of_mem r hq)) (n + 1)

theorem matchFrom_moves (s : Sample) (related : List Sample) (n : Nat) (rules : List Rule)
    (t : Timers) :
    Timers.Moves (fun k => ∃ r ∈ rules, r.watches s = true ∧ r.timerKey s.unit = .ok k) t
      (matchFrom s related n rules t).2 := by
  induction rules generalizing n t with
  | nil => exact .refl t
  | cons r rest ih =>
    have hrest (u : Timers) : Timers.Moves
        (fun k => ∃ q ∈ r :: rest, q.watches s = true ∧ q.timerKey s.unit = .ok k) u
        (matchFrom s related (n + 1) rest u).2 := by
      refine (ih (n + 1) u).mono ?_
      rintro k ⟨q, hq, hk⟩
      exact ⟨q, List.mem_cons_of_mem r hq, hk⟩
    simp only [matchFrom]
    split
    next hw =>
      have hhead : Timers.Moves
          (fun k => ∃ q ∈ r :: rest, q.watches s = true ∧ q.timerKey s.unit = .ok k) t
          (r.verdict s related t).2 :=
        (r.verdict_moves s related t).mono fun k hk => ⟨r, List.mem_cons_self, hw, hk⟩
      split
      next hv => simpa [hv] using hhead
      next hv => exact (by simpa [hv] using hhead : Timers.Moves _ t _).trans (hrest _)
    next => exact hrest t

theorem firstMatch_moves (s : Sample) (related : List Sample) (rules : List Rule) (t : Timers) :
    Timers.Moves (fun k => ∃ r ∈ rules, r.watches s = true ∧ r.timerKey s.unit = .ok k) t
      (firstMatch s related rules t).2 := matchFrom_moves s related 0 rules t

/-- A rule that matches stands at its position, and no rule before it matches. -/
theorem matchFrom_some {n m : Nat} {rules : List Rule} {r : Rule} {t u : Timers}
    (h : matchFrom s related n rules t = (some (m, r), u)) :
    ∃ p, m = n + p ∧ rules[p]? = some r ∧ r.watches s = true ∧
      (matchFrom s related n (rules.take p) t).1 = none ∧
      r.verdict s related (matchFrom s related n (rules.take p) t).2 = (.ok true, u) := by
  induction rules generalizing n t with
  | nil => simp [matchFrom] at h
  | cons q rest ih =>
    simp only [matchFrom] at h
    split at h
    next hw =>
      split at h
      next hv =>
        obtain ⟨hq, hu⟩ := Prod.mk.inj h
        obtain ⟨rfl, rfl⟩ := Prod.mk.inj (Option.some.inj hq)
        subst u
        exact ⟨0, rfl, rfl, hw, rfl, hv⟩
      next t' hne hv =>
        obtain ⟨p, hm, hr, hw', hnone, hverdict⟩ := ih h
        have hstep : matchFrom s related n ((q :: rest).take (p + 1)) t =
            matchFrom s related (n + 1) (rest.take p) t' := by
          simp only [List.take_succ_cons, matchFrom, hw, ↓reduceIte]
          rw [hv]
          split
          next he => exact absurd (Prod.mk.inj he).1 hne
          next he => rw [(Prod.mk.inj he).2]
        refine ⟨p + 1, by omega, by simpa using hr, hw', ?_, ?_⟩
        · rw [hstep]
          exact hnone
        · rw [hstep]
          exact hverdict
    next hw =>
      obtain ⟨p, hm, hr, hw', hnone, hverdict⟩ := ih h
      have hstep : matchFrom s related n ((q :: rest).take (p + 1)) t =
          matchFrom s related (n + 1) (rest.take p) t := by
        simp only [List.take_succ_cons, matchFrom, hw, Bool.false_eq_true, ↓reduceIte]
      refine ⟨p + 1, by omega, by simpa using hr, hw', ?_, ?_⟩
      · rw [hstep]
        exact hnone
      · rw [hstep]
        exact hverdict

theorem firstMatch_some {p : Nat} {rules : List Rule} {r : Rule} {t : Timers}
    (h : (firstMatch s related rules t).1 = some (p, r)) :
    rules[p]? = some r ∧ r.watches s = true ∧ (firstMatch s related (rules.take p) t).1 = none ∧
      r.verdict s related (firstMatch s related (rules.take p) t).2 =
        (.ok true, (firstMatch s related rules t).2) := by
  have hpair : matchFrom s related 0 rules t = (some (p, r), (firstMatch s related rules t).2) :=
    Prod.ext h rfl
  obtain ⟨p', hp, hr, hw, hnone, hverdict⟩ := matchFrom_some hpair
  have hpp : p = p' := by omega
  subst p'
  exact ⟨hr, hw, hnone, hverdict⟩

/-! ## One sample after another -/

/-- The records when so many samples, each with the related ones of its unit, have been passed to
the rules. -/
def recordsAfter (rules : List Rule) (calls : List (Sample × List Sample)) (t : Timers) (n : Nat) :
    Timers :=
  (calls.take n).foldl (fun u c => (firstMatch c.1 c.2 rules u).2) t

section Records

variable {rules : List Rule} {calls : List (Sample × List Sample)} {t : Timers}

theorem recordsAfter_succ {n : Nat} {c : Sample × List Sample} (hc : calls[n]? = some c) :
    recordsAfter rules calls t (n + 1) =
      (firstMatch c.1 c.2 rules (recordsAfter rules calls t n)).2 := by
  obtain ⟨hn, rfl⟩ := List.getElem?_eq_some_iff.mp hc
  rw [recordsAfter, List.take_succ_eq_append_getElem hn, List.foldl_append]
  rfl

theorem recordsAfter_moves (rules : List Rule) (calls : List (Sample × List Sample)) (t : Timers)
    {m n : Nat} (hmn : m ≤ n) :
    Timers.Moves (fun _ => True) (recordsAfter rules calls t m) (recordsAfter rules calls t n) := by
  induction n with
  | zero =>
    have hm : m = 0 := by omega
    subst m
    exact .refl _
  | succ n ih =>
    rcases Nat.lt_or_ge n m with hlt | hge
    · have hm : m = n + 1 := by omega
      subst m
      exact .refl _
    · refine (ih hge).trans ?_
      cases hc : calls[n]? with
      | some c =>
        rw [recordsAfter_succ hc]
        exact (firstMatch_moves c.1 c.2 rules _).mono fun _ _ => trivial
      | none =>
        have hlen := List.getElem?_eq_none_iff.mp hc
        have hsame : recordsAfter rules calls t (n + 1) = recordsAfter rules calls t n := by
          simp only [recordsAfter, List.take_of_length_le hlen,
            List.take_of_length_le (show calls.length ≤ n + 1 by omega)]
        rw [hsame]
        exact .refl _

theorem recordsAfter_reliable (hr : t.Reliable) (n : Nat) :
    (recordsAfter rules calls t n).Reliable :=
  (recordsAfter_moves rules calls t (Nat.zero_le n)).reliable hr

end Records

/-! ## Plain rules and readings -/

/-- A rule that asks a tag to read a whole number, for so many minutes unless there are none. -/
def Rule.reads (tag : String) (n : Int) (minutes : Nat) : Rule where
  tag := tag
  condition := .equals
  threshold := .whole n
  description := ""
  alarmKind := ""
  enabled := true
  table := none
  prerequisite := none
  duration := some ⟨Double.ofNat minutes, .minute, .continuous⟩
  complaintType := none
  faultType := none

/-- A reading of a tag at one unit, so many minutes into the calendar. -/
def Sample.reading (tag : String) (n : Int) (minutes : Nat) : Sample :=
  ⟨"101", tag, .int n, minutes * 60000000, .digital, none⟩

end FaultDesk
