import FaultDesk.Proofs.Matching.Calls
import FaultDesk.Rate

/-!
Rate rules over one sample: each of them touches its own timer only, and the rules are gone through
in order.
-/

namespace FaultDesk

theorem RateRule.gate_moves (r : RateRule) (s : Sample) (t : Timers) :
    Timers.Moves (fun k => r.timerKey s.unit = .ok k) t (r.gate s t).2 := by
  unfold RateRule.gate
  split
  next =>
    split
    next => exact .refl t
    next key hk =>
      have hown : ∀ k, k = key → r.timerKey s.unit = .ok k := fun k he => by rw [he]; exact hk
      split
      next => exact .refl t
      next => exact (t.clear_moves key).mono hown
      next =>
        have hasked := (t.sustained_moves key r.duration (.utc s.time) none).mono hown
        split
        next h => simpa [h] using hasked
        next h => simpa [h] using hasked
  next => exact .refl t

theorem RateRule.verdict_moves (r : RateRule) (s : Sample) (related : List Sample) (h : History)
    (now : Instant) (t : Timers) :
    Timers.Moves (fun k => r.timerKey s.unit = .ok k) t (r.verdict s related h now t).2 := by
  have hgate := r.gate_moves s t
  unfold RateRule.verdict
  split
  next => exact .refl t
  next => exact .refl t
  next =>
    split
    next hg => simpa [hg] using hgate
    next hg => simpa [hg] using hgate
    next hg => simpa [hg] using hgate

section Rules

variable {s : Sample} {related : List Sample} {h : History} {now : Instant}

theorem rateFrom_append (before after : List RateRule) (t : Timers) :
    rateFrom s related h now (before ++ after) t =
      match rateFrom s related h now before t with
      | (some c, u) => (some c, u)
      | (none, u) => rateFrom s related h now after u := by
  induction before generalizing t with
  | nil => rfl
  | cons r rest ih =>
    simp only [List.cons_append, rateFrom]
    split
    next => rfl
    next => exact ih _

/-- What the rules find is found by one of them. -/
theorem of_rateFrom {rules : List RateRule} {t : Timers} {c : Candidate}
    (hc : (rateFrom s related h now rules t).1 = some c) :
    ∃ r ∈ rules, ∃ st u, (r.verdict s related h now u).1 = .ok (some st) ∧
      c = .ofSample s (.rate r) (some st) := by
  induction rules generalizing t with
  | nil => cases hc
  | cons r rest ih =>
    simp only [rateFrom] at hc
    split at hc
    next st u hv =>
      exact ⟨r, List.mem_cons_self, st, t, congrArg Prod.fst hv, (Option.some.inj hc).symm⟩
    next =>
      obtain ⟨q, hq, hfound⟩ := ih hc
      exact ⟨q, List.mem_cons_of_mem r hq, hfound⟩

theorem rateFrom_moves (rules : List RateRule) (t : Timers) :
    Timers.Moves (fun k => ∃ r ∈ rules, r.timerKey s.unit = .ok k) t
      (rateFrom s related h now rules t).2 := by
  induction rules generalizing t with
  | nil => exact .refl t
  | cons r rest ih =>
    have hrest (u : Timers) : Timers.Moves (fun k => ∃ q ∈ r :: rest, q.timerKey s.unit = .ok k) u
        (rateFrom s related h now rest u).2 := by
      refine (ih u).mono ?_
      rintro k ⟨q, hq, hk⟩
      exact ⟨q, List.mem_cons_of_mem r hq, hk⟩
    have hhead : Timers.Moves (fun k => ∃ q ∈ r :: rest, q.timerKey s.unit = .ok k) t
        (r.verdict s related h now t).2 :=
      (r.verdict_moves s related h now t).mono fun k hk => ⟨r, List.mem_cons_self, hk⟩
    simp only [rateFrom]
    split
    next hv => simpa [hv] using hhead
    next hv => exact (by simpa [hv] using hhead : Timers.Moves _ t _).trans (hrest _)

end Rules

end FaultDesk
