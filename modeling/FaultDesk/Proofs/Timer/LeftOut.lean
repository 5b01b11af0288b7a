import FaultDesk.Proofs.Arbitration.Recovery
import FaultDesk.Proofs.Rate.Calls
import FaultDesk.Proofs.Timer.Alike

/-!
The rules side by side, on timers that agree on the keys that the rules wait on. Rules may be left out
on one side: as long as they have other keys and match nowhere, the others find the same.
-/

namespace FaultDesk

open Timers

variable {on : TimerKey → Prop} {t u : Timers} {unit : String} {s : Sample} {related : List Sample}

/-! ## One rule -/

/-- The key of the timer that a rule waits on, if it waits at all, is of a kind. -/
def Rule.WaitsOn (r : Rule) (unit : String) (on : TimerKey → Prop) : Prop :=
  r.gated = true → ∀ key, r.timerKey unit = .ok key → on key

theorem Rule.clearTimer_alike (r : Rule) (unit : String) (h : Alike on t u) :
    SameOutcome on (r.clearTimer unit t) (r.clearTimer unit u) := by
  unfold Rule.clearTimer
  split
  next => exact ⟨rfl, h⟩
  next key _ => exact ⟨rfl, h.clear key⟩

theorem Rule.verdict_alike {r : Rule} (hr : r.WaitsOn s.unit on) (h : Alike on t u) :
    SameOutcome on (r.verdict s related t) (r.verdict s related u) := by
  unfold Rule.verdict
  cases r.prerequisiteHolds s related with
  | error e => exact ⟨rfl, h⟩
  | ok b =>
    cases b with
    | false => exact ⟨rfl, h⟩
    | true =>
      cases r.holdsFor s.value with
      | error e => exact ⟨rfl, h⟩
      | ok b =>
        cases b with
        | false =>
          dsimp only
          split
          next =>
            obtain ⟨a, t', u', ht, hu, h'⟩ := (r.clearTimer_alike s.unit h).split
            rw [ht, hu]
            cases a with
            | error e => exact ⟨rfl, h'⟩
            | ok => exact ⟨rfl, h'⟩
          next => exact ⟨rfl, h⟩
        | true =>
          dsimp only
          split
          next hg =>
            unfold Rule.askTimer
            cases hk : r.timerKey s.unit with
            | error e => exact ⟨rfl, h⟩
            | ok key => exact h.sustained (hr hg key hk) _ _ _
          next => exact ⟨rfl, h⟩

theorem RateRule.gate_alike {r : RateRule} (hr : r.WaitsOn s.unit on) (h : Alike on t u) :
    SameOutcome on (r.gate s t) (r.gate s u) := by
  unfold RateRule.gate
  split
  next hg =>
    cases hk : r.timerKey s.unit with
    | error e => exact ⟨rfl, h⟩
    | ok key =>
      cases r.holdsFor s.value with
      | error e => exact ⟨rfl, h⟩
      | ok b =>
        cases b with
        | false => exact ⟨rfl, h.clear key⟩
        | true =>
          obtain ⟨a, t', u', ht, hu, h'⟩ :=
            (h.sustained (hr hg key hk) r.duration (.utc s.time) none).split
          dsimp only
          rw [ht, hu]
          cases a with
          | error e => exact ⟨rfl, h'⟩
          | ok b => exact ⟨rfl, h'⟩
  next => exact ⟨rfl, h⟩

theorem RateRule.verdict_alike {r : RateRule} {past : History} {now : Instant}
    (hr : r.WaitsOn s.unit on) (h : Alike on t u) :
    SameOutcome on (r.verdict s related past now t) (r.verdict s related past now u) := by
  unfold RateRule.verdict
  cases r.prerequisiteHolds s related with
  | error e => exact ⟨rfl, h⟩
  | ok b =>
    cases b with
    | false => exact ⟨rfl, h⟩
    | true =>
      obtain ⟨a, t', u', ht, hu, h'⟩ := (RateRule.gate_alike hr h).split
      dsimp only
      rw [ht, hu]
      cases a with
      | error e => exact ⟨rfl, h'⟩
      | ok passes =>
        cases passes with
        | none => exact ⟨rfl, h'⟩
        | some b => exact ⟨rfl, h'⟩

theorem MasterRule.ripe_alike {r : MasterRule} {key : TimerKey} {run : ActiveRun}
    (hr : r.gated = true → on key) (h : Alike on t u) :
    SameOutcome on (r.ripe key run t) (r.ripe key run u) := by
  unfold MasterRule.ripe
  split
  next => exact ⟨rfl, h⟩
  next hasks =>
    have hk : on key := hr (by simpa using fun hg => hasks (Or.inr hg))
    dsimp only
    split
    next => exact (h.clear key).sustained hk _ _ _
    next => exact h.sustained hk _ _ _

theorem MasterRule.verdict_alike {r : MasterRule} {samples : List Sample}
    (hr : r.WaitsOn unit on) (h : Alike on t u) :
    SameOutcome on (r.verdict unit samples t) (r.verdict unit samples u) := by
  unfold MasterRule.verdict
  cases hk : r.timerKey unit with
  | error e => exact ⟨rfl, h⟩
  | ok key =>
    cases ActiveRun.find r samples with
    | error e => exact ⟨rfl, h⟩
    | ok out =>
      cases out with
      | none =>
        dsimp only
        split
        next => exact ⟨rfl, h.clear key⟩
        next => exact ⟨rfl, h⟩
      | some run =>
        have hown : r.gated = true → on key := fun hg => hr hg key hk
        obtain ⟨a, t', u', ht, hu, h'⟩ := (MasterRule.ripe_alike hown h).split
        dsimp only
        rw [ht, hu]
        cases a with
        | error e => exact ⟨rfl, h'⟩
        | ok b => cases b <;> exact ⟨rfl, h'⟩

/-! ## The rules one after another -/

/-- Rules of which some are left out: the others wait on keys of a kind, and the keys of those left
out are of another. -/
structure Parted {α : Type} (base : α → Rule) (unit : String) (on : TimerKey → Prop)
    (keep : α → Bool) (rules : List α) : Prop where
  kept : ∀ r ∈ rules, keep r = true → (base r).WaitsOn unit on
  left : ∀ r ∈ rules, keep r = false → ∀ key, (base r).timerKey unit = .ok key → ¬ on key

theorem Parted.of_cons {α : Type} {base : α → Rule} {keep : α → Bool} {r : α} {rest : List α}
    (h : Parted base unit on keep (r :: rest)) : Parted base unit on keep rest :=
  ⟨fun q hq => h.kept q (List.mem_cons_of_mem r hq),
    fun q hq => h.left q (List.mem_cons_of_mem r hq)⟩

theorem Parted.filter {α : Type} {base : α → Rule} {keep : α → Bool} {rules : List α}
    (h : Parted base unit on keep rules) (p : α → Bool) :
    Parted base unit on keep (rules.filter p) :=
  ⟨fun q hq => h.kept q (List.mem_filter.mp hq).1, fun q hq => h.left q (List.mem_filter.mp hq).1⟩

/-- The first simple rule that matches, if it is not left out, matches among the others as well. -/
theorem matchFrom_leftOut {keep : Rule → Bool} {rules : List Rule}
    (hparts : Parted id s.unit on keep rules) (h : Alike on t u) (m n : Nat)
    (hfound : ∀ p r, (matchFrom s related n rules t).1 = some (p, r) → keep r = true) :
    (matchFrom s related m (rules.filter keep) u).1.map (·.2) =
        (matchFrom s related n rules t).1.map (·.2) ∧
      Alike on (matchFrom s related n rules t).2
        (matchFrom s related m (rules.filter keep) u).2 := by
  -- a rule left out may still start or drop its own timer, which the others do not see
  induction rules generalizing t u m n with
  | nil => exact ⟨rfl, h⟩
  | cons r rest ih =>
    cases hw : r.watches s with
    | false =>
      simp only [matchFrom, hw, Bool.false_eq_true, ↓reduceIte] at hfound ⊢
      cases hkeep : keep r with
      | false =>
        rw [List.filter_cons_of_neg (by simp [hkeep])]
        exact ih hparts.of_cons h m (n + 1) hfound
      | true =>
        rw [List.filter_cons_of_pos hkeep]
        simp only [matchFrom, hw, Bool.false_eq_true, ↓reduceIte]
        exact ih hparts.of_cons h (m + 1) (n + 1) hfound
    | true =>
      simp only [matchFrom, hw, ↓reduceIte] at hfound ⊢
      cases hkeep : keep r with
      | false =>
        rw [List.filter_cons_of_neg (by simp [hkeep])]
        have hmoves := r.verdict_moves s related t
        have hother := hparts.left r List.mem_cons_self hkeep
        split at hfound
        next => exact absurd (hfound n r rfl) (by simp [hkeep])
        next t' _ hv =>
          rw [hv] at hmoves
          have h' : Alike on t' u := (h.symm.moved hmoves hother).symm
          exact ih hparts.of_cons h' m (n + 1) hfound
      | true =>
        rw [List.filter_cons_of_pos hkeep]
        simp only [matchFrom, hw, ↓reduceIte]
        have hr := hparts.kept r List.mem_cons_self hkeep
        obtain ⟨a, t', u', ht, hu, h'⟩ := (@Rule.verdict_alike on t u s related r hr h).split
        rw [ht] at hfound ⊢
        rw [hu]
        cases a with
        | error e => exact ih hparts.of_cons h' (m + 1) (n + 1) hfound
        | ok b =>
          cases b with
          | false => exact ih hparts.of_cons h' (m + 1) (n + 1) hfound
          | true => exact ⟨rfl, h'⟩

/-- The first rate rule that is triggered, if it is not left out, is triggered among the others as
well. -/
theorem rateFrom_leftOut {keep : RateRule → Bool} {rules : List RateRule} {past : History}
    {now : Instant} (hparts : Parted RateRule.toRule s.unit on keep rules) (h : Alike on t u)
    (hfound : ∀ c r, (rateFrom s related past now rules t).1 = some c → c.rule = .rate r →
      keep r = true) :
    SameOutcome on (rateFrom s related past now rules t)
      (rateFrom s related past now (rules.filter keep) u) := by
  induction rules generalizing t u with
  | nil => exact ⟨rfl, h⟩
  | cons r rest ih =>
    simp only [rateFrom] at hfound ⊢
    cases hkeep : keep r with
    | false =>
      rw [List.filter_cons_of_neg (by simp [hkeep])]
      have hmoves := r.verdict_moves s related past now t
      have hother := hparts.left r List.mem_cons_self hkeep
      split at hfound
      next => exact absurd (hfound _ r rfl rfl) (by simp [hkeep])
      next t' _ hv =>
        rw [hv] at hmoves
        have h' : Alike on t' u := (h.symm.moved hmoves hother).symm
        exact ih hparts.of_cons h' hfound
    | true =>
      rw [List.filter_cons_of_pos hkeep]
      simp only [rateFrom]
      have hr := hparts.kept r List.mem_cons_self hkeep
      obtain ⟨a, t', u', ht, hu, h'⟩ :=
        (@RateRule.verdict_alike on t u s related r past now hr h).split
      rw [ht] at hfound ⊢
      rw [hu]
      cases a with
      | error e => exact ih hparts.of_cons h' hfound
      | ok found =>
        cases found with
        | none => exact ih hparts.of_cons h' hfound
        | some st => exact ⟨rfl, h'⟩

theorem firstRateIn_leftOut {keep : RateRule → Bool} {rules : List RateRule} {past : History}
    {now : Instant} (hparts : Parted RateRule.toRule s.unit on keep rules) (h : Alike on t u)
    (hfound : ∀ c r, (firstRateIn s related past now rules t).1 = some c → c.rule = .rate r →
      keep r = true) :
    SameOutcome on (firstRateIn s related past now rules t)
      (firstRateIn s related past now (rules.filter keep) u) := by
  have hswap : (rules.filter keep).filter (fun r => r.watches s) =
      (rules.filter fun r => r.watches s).filter keep := by
    rw [List.filter_filter, List.filter_filter]
    exact List.filter_congr fun r _ => Bool.and_comm _ _
  unfold firstRateIn at hfound ⊢
  rw [hswap]
  exact rateFrom_leftOut (hparts.filter _) h hfound

theorem MasterRule.rule_of_verdict {r : MasterRule} {samples : List Sample} {m : MasterMatch}
    (h : (r.verdict unit samples t).1 = .ok (some m)) : m.rule = r := by
  unfold MasterRule.verdict at h
  split at h
  next => cases h
  next =>
    split at h
    next => cases h
    next => cases h
    next =>
      split at h
      next => cases h
      next => cases h
      next =>
        obtain rfl := Option.some.inj (Except.ok.inj h)
        rfl

/-- What the master rules find that are not left out, if the arbitration comes to its end and is not
ended by one that is. -/
theorem arbitrateFrom_leftOut {keep : MasterRule → Bool} {rules : List MasterRule}
    {samples : List Sample} {collected : List MasterMatch} {a : Arbitration} {t' : Timers}
    (hparts : Parted MasterRule.toRule unit on keep rules) (h : Alike on t u)
    (hok : arbitrateFrom unit samples collected rules t = (.ok a, t'))
    (hblocking : ∀ m, a.blocking = some m → keep m.rule = true) :
    ∃ u', arbitrateFrom unit samples (collected.filter (keep ·.rule)) (rules.filter keep) u =
        (.ok ⟨a.blocking, a.collected.filter (keep ·.rule)⟩, u') ∧ Alike on t' u' := by
  induction rules generalizing t u collected with
  | nil =>
    obtain ⟨hresult, rfl⟩ := Prod.mk.inj hok
    obtain rfl := Except.ok.inj hresult
    exact ⟨u, rfl, h⟩
  | cons r rest ih =>
    cases hon : r.enabled with
    | false =>
      simp only [arbitrateFrom, hon, Bool.false_eq_true, ↓reduceIte] at hok
      cases hkeep : keep r with
      | false =>
        rw [List.filter_cons_of_neg (by simp [hkeep])]
        exact ih hparts.of_cons h hok
      | true =>
        rw [List.filter_cons_of_pos hkeep]
        simp only [arbitrateFrom, hon, Bool.false_eq_true, ↓reduceIte]
        exact ih hparts.of_cons h hok
    | true =>
      simp only [arbitrateFrom, hon, ↓reduceIte] at hok
      have hrule (m : MasterMatch) (v : Timers) (hv : r.verdict unit samples t = (.ok (some m), v)) :
          m.rule = r := MasterRule.rule_of_verdict (congrArg Prod.fst hv)
      cases hkeep : keep r with
      | false =>
        rw [List.filter_cons_of_neg (by simp [hkeep])]
        have hmoves := r.verdict_moves unit samples t
        have hother := hparts.left r List.mem_cons_self hkeep
        have hleft (v : Timers) (hv : (r.verdict unit samples t).2 = v) : Alike on v u := by
          rw [hv] at hmoves
          exact (h.symm.moved hmoves hother).symm
        split at hok
        next => cases hok
        next v hv => exact ih hparts.of_cons (hleft v (congrArg Prod.snd hv)) hok
        next m v hv =>
          split at hok
          next =>
            obtain rfl := Except.ok.inj (Prod.mk.inj hok).1
            have hkept := hblocking m rfl
            rw [hrule m v hv, hkeep] at hkept
            cases hkept
          next =>
            have hstep := ih hparts.of_cons (hleft v (congrArg Prod.snd hv)) hok
            simpa [List.filter_append, hrule m v hv, hkeep] using hstep
      | true =>
        rw [List.filter_cons_of_pos hkeep]
        simp only [arbitrateFrom, hon, ↓reduceIte]
        have hr := hparts.kept r List.mem_cons_self hkeep
        obtain ⟨found, v, w, ht, hu, h'⟩ :=
          (@MasterRule.verdict_alike on t u unit r samples hr h).split
        rw [ht] at hok
        rw [hu]
        cases found with
        | error e => cases hok
        | ok found =>
          cases found with
          | none => exact ih hparts.of_cons h' hok
          | some m =>
            dsimp only at hok ⊢
            split
            next hblocks =>
              rw [if_pos hblocks] at hok
              obtain ⟨hresult, rfl⟩ := Prod.mk.inj hok
              obtain rfl := Except.ok.inj hresult
              exact ⟨w, rfl, h'⟩
            next hblocks =>
              rw [if_neg hblocks] at hok
              have hstep := ih hparts.of_cons h' hok
              simpa [List.filter_append, hrule m v ht, hkeep] using hstep

end FaultDesk
