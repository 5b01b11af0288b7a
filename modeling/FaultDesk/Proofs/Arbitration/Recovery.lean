import FaultDesk.Proofs.Arbitration.ActiveRun
import FaultDesk.Proofs.Matching.Calls

/-!
What an arbitration leaves behind of the timer of a rule whose condition has gone false. The rules
are gone through in order, and each one touches its own timer only, so it matters whether a rule is
reached and whether it asks its timer once it is.
-/

namespace FaultDesk

/-- The instant since when the timer of a key runs. -/
def Timers.start? (t : Timers) (key : TimerKey) : Option Instant :=
  (t.find? key).map fun s => s.wall - s.offset.getD 0

theorem Timers.start?_written_utc (t : Timers) (key : TimerKey) (i : Instant) :
    (t.written key (.utc i)).start? key = some i := by
  unfold Timers.start?
  rw [Timers.find?_written, if_pos rfl]
  unfold Timers.kept
  split <;> simp [Stamp.utc]

/-! ## One rule -/

namespace MasterRule

variable {r : MasterRule} {unit : String} {samples : List Sample} {t u : Timers} {key : TimerKey}

theorem ripe_moves (r : MasterRule) (key : TimerKey) (run : ActiveRun) (t : Timers) :
    Timers.Moves (· = key) t (r.ripe key run t).2 := by
  unfold ripe
  split
  next => exact .refl t
  next =>
    split
    next => exact (t.clear_moves key).trans (Timers.sustained_moves _ key _ _ _)
    next => exact t.sustained_moves key _ _ _

theorem verdict_moves (r : MasterRule) (unit : String) (samples : List Sample) (t : Timers) :
    Timers.Moves (fun k => r.timerKey unit = .ok k) t (r.verdict unit samples t).2 := by
  unfold verdict
  split
  next => exact .refl t
  next key hk =>
    have hown : ∀ k, k = key → r.timerKey unit = .ok k := fun k he => by rw [he]; exact hk
    split
    next => exact .refl t
    next =>
      dsimp only
      split
      next => exact (t.clear_moves key).mono hown
      next => exact .refl t
    next run _ =>
      have hripe := (r.ripe_moves key run t).mono hown
      split
      next h => simpa [h] using hripe
      next h => simpa [h] using hripe
      next h => simpa [h] using hripe

/-- Nothing stale is left of the timer of a rule: it is gone when the condition is not true at the
latest relevant sample, and when the condition went false somewhere it is no older than the block of
true samples behind that. -/
structure Fresh (r : MasterRule) (key : TimerKey) (samples : List Sample) (t : Timers) : Prop where
  gone : r.trailing samples = [] → t.find? key = none
  recent : ∀ first start, (r.trailing samples).head? = some first →
    (∃ s ∈ r.relevant samples, r.trueAt s = false) → t.start? key = some start → first.time ≤ start

theorem Fresh.congr (h : u.find? key = t.find? key) :
    r.Fresh key samples u ↔ r.Fresh key samples t := by
  have hstart : u.start? key = t.start? key := by simp only [Timers.start?, h]
  constructor
  · intro hf
    exact ⟨fun he => h ▸ hf.gone he, fun first start hb hs ht => hf.recent first start hb hs
      (hstart.trans ht)⟩
  · intro hf
    exact ⟨fun he => h.trans (hf.gone he), fun first start hb hs ht => hf.recent first start hb hs
      (hstart.symm.trans ht)⟩

/-- What a verdict does to the timers. -/
theorem verdict_ok_cases {found : Option MasterMatch} (hk : r.timerKey unit = .ok key)
    (h : r.verdict unit samples t = (.ok found, u)) :
    (ActiveRun.find r samples = .ok none ∧ u = if r.gated then t.clear key else t) ∨
      ∃ run, ActiveRun.find r samples = .ok (some run) ∧ u = (r.ripe key run t).2 := by
  unfold verdict at h
  rw [hk] at h
  cases hf : ActiveRun.find r samples with
  | error e => simp [hf] at h
  | ok out =>
    cases out with
    | none =>
      simp only [hf] at h
      exact Or.inl ⟨rfl, (Prod.mk.inj h).2.symm⟩
    | some run =>
      simp only [hf] at h
      refine Or.inr ⟨run, rfl, ?_⟩
      split at h
      next => simp at h
      next he => rw [he]; exact (Prod.mk.inj h).2.symm
      next he => rw [he]; exact (Prod.mk.inj h).2.symm

/-- The timer of an interrupted run is started at the first sample of the run, or not at all. -/
theorem start?_ripe_interrupted {run : ActiveRun} {start : Instant} (hr : t.Reliable)
    (hg : r.gated = true) (hread : run.latest.kind ≠ .computed) (hi : run.interrupted = true)
    (h : (r.ripe key run t).2.start? key = some start) : start = run.first.time := by
  obtain ⟨d, hd, hinstant⟩ := Rule.gated_iff.mp hg
  have hcleared : (t.clear key).Reliable := (t.clear_moves key).reliable hr
  have hnone : (t.clear key).find? key = none := by rw [hr.find?_clear, if_pos rfl]
  have hasks : ¬ (run.latest.kind = .computed ∨ (!r.gated) = true) := by simp [hread, hg]
  rw [ripe, if_neg hasks, if_pos hi, hd] at h
  cases hs : ((some (Stamp.utc run.first.time)).getD (.utc run.latest.time)).instant? with
  | none =>
    rw [hcleared.sustained_unstarted hnone hinstant hs] at h
    simp [Timers.start?, hnone] at h
  | some i =>
    rw [hcleared.sustained_fresh hnone hinstant hs, Timers.start?_written_utc] at h
    have hstart : i = start := Option.some.inj h
    have hfirst : i = run.first.time := Stamp.eq_of_instant?_utc hs
    exact hstart.symm.trans hfirst

/-- A gated rule that asks its timer leaves nothing stale. -/
theorem fresh_of_verdict {found : Option MasterMatch} (hr : t.Reliable) (hg : r.gated = true)
    (hk : r.timerKey unit = .ok key) (h : r.verdict unit samples t = (.ok found, u))
    (hread : ∀ latest, (r.trailing samples).getLast? = some latest → latest.kind ≠ .computed) :
    r.Fresh key samples u := by
  rcases verdict_ok_cases hk h with ⟨-, hu⟩ | ⟨run, hf, hu⟩
  · have hgone : u.find? key = none := by rw [hu, if_pos hg, hr.find?_clear, if_pos rfl]
    exact ⟨fun _ => hgone, fun _ _ _ _ hs => by simp [Timers.start?, hgone] at hs⟩
  · obtain ⟨hfirst, hlatest, hinterrupted⟩ := ActiveRun.find_some hf
    refine ⟨fun he => by simp [he] at hfirst, ?_⟩
    intro first start hb hs ht
    rw [hu] at ht
    have hstart := start?_ripe_interrupted hr hg (hread _ hlatest) (hinterrupted.mpr hs) ht
    have hsame : first = run.first := Option.some.inj (hb.symm.trans hfirst)
    exact Int.le_of_eq (by rw [hstart, hsame])

/-- A rule whose latest relevant sample is a computed one leaves its timer alone. -/
theorem verdict_computed {found : Option MasterMatch} {latest : Sample}
    (hk : r.timerKey unit = .ok key) (h : r.verdict unit samples t = (.ok found, u))
    (hlatest : (r.trailing samples).getLast? = some latest) (hc : latest.kind = .computed) :
    u = t := by
  rcases verdict_ok_cases hk h with ⟨hf, -⟩ | ⟨run, hf, hu⟩
  · simp [ActiveRun.find_none hf] at hlatest
  · obtain ⟨-, hrun, -⟩ := ActiveRun.find_some hf
    obtain rfl : latest = run.latest := Option.some.inj (hlatest.symm.trans hrun)
    rw [hu, ripe, if_pos (Or.inl hc)]

end MasterRule

/-! ## The rules one after another -/

variable {unit : String} {samples : List Sample}

theorem arbitrateFrom_moves (unit : String) (samples : List Sample) (collected : List MasterMatch)
    (rules : List MasterRule) (t : Timers) :
    Timers.Moves (fun k => ∃ r ∈ rules, r.timerKey unit = .ok k) t
      (arbitrateFrom unit samples collected rules t).2 := by
  induction rules generalizing collected t with
  | nil => exact .refl t
  | cons r rest ih =>
    have hrest (c : List MasterMatch) (u : Timers) : Timers.Moves
        (fun k => ∃ q ∈ r :: rest, q.timerKey unit = .ok k) u
        (arbitrateFrom unit samples c rest u).2 := by
      refine (ih c u).mono ?_
      rintro k ⟨q, hq, hk⟩
      exact ⟨q, List.mem_cons_of_mem r hq, hk⟩
    have hhead : Timers.Moves (fun k => ∃ q ∈ r :: rest, q.timerKey unit = .ok k) t
        (r.verdict unit samples t).2 :=
      (r.verdict_moves unit samples t).mono fun k hk => ⟨r, List.mem_cons_self, hk⟩
    simp only [arbitrateFrom]
    split
    next =>
      split
      next hv =>
        rw [hv] at hhead
        exact hhead
      next hv =>
        rw [hv] at hhead
        exact hhead.trans (hrest _ _)
      next hv =>
        rw [hv] at hhead
        split
        next => exact hhead
        next => exact hhead.trans (hrest _ _)
    next => exact hrest collected t

theorem arbitrateFrom_append (collected : List MasterMatch) (before after : List MasterRule)
    (t : Timers) :
    arbitrateFrom unit samples collected (before ++ after) t =
      match arbitrateFrom unit samples collected before t with
      | (.ok ⟨none, c⟩, u) => arbitrateFrom unit samples c after u
      | ended => ended := by
  induction before generalizing collected t with
  | nil => rfl
  | cons r rest ih =>
    simp only [List.cons_append, arbitrateFrom]
    split
    next =>
      split
      next => rfl
      next => exact ih collected _
      next =>
        split
        next => rfl
        next => exact ih _ _
    next => exact ih collected t

/-- A rule that is reached gives its verdict, and the rules behind it have other keys. -/
theorem arbitrateFrom_cons_ok {r : MasterRule} {after : List MasterRule}
    {collected : List MasterMatch} {t u : Timers} {a : Arbitration} {key : TimerKey}
    (he : r.enabled = true) (hother : ¬ ∃ q ∈ after, q.timerKey unit = .ok key)
    (h : arbitrateFrom unit samples collected (r :: after) t = (.ok a, u)) :
    ∃ found w, r.verdict unit samples t = (.ok found, w) ∧ u.find? key = w.find? key := by
  have hrest (c : List MasterMatch) (w : Timers)
      (hw : arbitrateFrom unit samples c after w = (.ok a, u)) : u.find? key = w.find? key := by
    have hmoves := arbitrateFrom_moves unit samples c after w
    rw [hw] at hmoves
    exact hmoves.find?_other hother
  simp only [arbitrateFrom, he, ↓reduceIte] at h
  split at h
  next => simp at h
  next w hv => exact ⟨none, w, hv, hrest _ _ h⟩
  next m w hv =>
    refine ⟨some m, w, hv, ?_⟩
    split at h
    next => rw [(Prod.mk.inj h).2]
    next => exact hrest _ _ h

/-- No two rules of a list share a timer. -/
def DistinctKeys (unit : String) (rules : List MasterRule) : Prop :=
  rules.Pairwise fun q r => ∀ key, q.timerKey unit = .ok key → r.timerKey unit ≠ .ok key

/-- After an arbitration nothing stale is left of the timer of an enabled gated rule exactly if
nothing was before, or if the rule is reached and its latest relevant sample is not a computed
one. -/
theorem arbitrate_fresh_iff {rules : List MasterRule} {p : Nat} {r : MasterRule} {t u : Timers}
    {a : Arbitration} {key : TimerKey} (hr : t.Reliable) (hkeys : DistinctKeys unit rules)
    (h : arbitrate unit samples rules t = (.ok a, u)) (hp : rules[p]? = some r)
    (he : r.enabled = true) (hg : r.gated = true) (hk : r.timerKey unit = .ok key) :
    r.Fresh key samples u ↔ r.Fresh key samples t ∨
      (∃ b, (arbitrate unit samples (rules.take p) t).1 = .ok b ∧ b.blocking = none) ∧
        ∀ latest, (r.trailing samples).getLast? = some latest → latest.kind ≠ .computed := by
  have hsplit := eq_take_append_cons_drop hp
  generalize rules.take p = before at hsplit ⊢
  generalize rules.drop (p + 1) = after at hsplit
  subst rules
  obtain ⟨-, htail, hacross⟩ := List.pairwise_append.mp hkeys
  obtain ⟨hafter, -⟩ := List.pairwise_cons.mp htail
  have hmoves := arbitrateFrom_moves unit samples [] before t
  have hkept : (arbitrateFrom unit samples [] before t).2.find? key = t.find? key := by
    refine hmoves.find?_other ?_
    rintro ⟨q, hq, hqk⟩
    exact hacross q hq r List.mem_cons_self key hqk hk
  unfold arbitrate at h ⊢
  rw [arbitrateFrom_append] at h
  generalize arbitrateFrom unit samples [] before t = reached at h hmoves hkept ⊢
  obtain ⟨result, v⟩ := reached
  cases result with
  | error e => simp at h
  | ok b =>
    obtain ⟨blocking, collected⟩ := b
    cases blocking with
    | some m =>
      have hu : u = v := (Prod.mk.inj h).2.symm
      rw [hu, MasterRule.Fresh.congr hkept]
      simp
    | none =>
      have hother : ¬ ∃ q ∈ after, q.timerKey unit = .ok key := by
        rintro ⟨q, hq, hqk⟩
        exact hafter q hq key hk hqk
      obtain ⟨found, w, hverdict, hfind⟩ := arbitrateFrom_cons_ok he hother h
      rw [MasterRule.Fresh.congr hfind]
      by_cases hread : ∀ latest, (r.trailing samples).getLast? = some latest →
          latest.kind ≠ .computed
      · have hfresh := MasterRule.fresh_of_verdict (hmoves.reliable hr) hg hk hverdict hread
        exact iff_of_true hfresh (Or.inr ⟨⟨_, rfl, rfl⟩, hread⟩)
      · obtain ⟨latest, hlatest, hcomputed⟩ : ∃ latest,
            (r.trailing samples).getLast? = some latest ∧ latest.kind = .computed := by
          simpa using hread
        have hw : w = v := MasterRule.verdict_computed hk hverdict hlatest hcomputed
        rw [hw, MasterRule.Fresh.congr hkept]
        exact ⟨Or.inl, fun hor => hor.resolve_right fun hright => hread hright.2⟩

/-! ## A silent unit that loses its power -/

theorem distinctKeys_of_ne {rules : List MasterRule}
    (h : rules.Pairwise fun q r => q.timerKey unit ≠ r.timerKey unit) : DistinctKeys unit rules :=
  h.imp fun hne _ hq hr => hne (hq.trans hr.symm)

/-- A lasting silence is collected. -/
def silence : MasterRule := ⟨.reads "Tag8" 0 30, 2⟩

/-- A loss of power ends the search. -/
def powerLoss : MasterRule := ⟨.reads "Tag16" 0 0, 1⟩

/-- The timers of a unit that has fallen silent. -/
def silent : Timers := (Timers.empty true).written ⟨"101", "Tag8", "0"⟩ (.utc 0)

theorem silent_reliable : silent.Reliable := ⟨rfl, fun _ _ => rfl⟩

/-- The unit speaks again and loses its power. -/
def recovery : List Sample := [.reading "Tag16" 0 5, .reading "Tag8" 1 5]

/-- The unit speaks again, and a computed reading says that it does not. -/
def relapse : List Sample :=
  [.reading "Tag8" 1 5, ⟨"101", "Tag8", .int 0, 600000000, .computed, none⟩]

theorem sorted_recovery : Sample.sorted recovery = recovery := Sample.sorted_of_ordered (by decide)

theorem sorted_relapse : Sample.sorted relapse = relapse := Sample.sorted_of_ordered (by decide)

theorem trailing_recovery : silence.trailing recovery = [] := by
  refine List.eq_nil_of_length_eq_zero ?_
  rw [MasterRule.trailing, MasterRule.relevant, sorted_recovery]
  decide +kernel

theorem silence_fresh_when_reached :
    silence.Fresh ⟨"101", "Tag8", "0"⟩ recovery
      (arbitrate "101" recovery [silence, powerLoss] silent).2 := by
  have hkeys : DistinctKeys "101" [silence, powerLoss] := distinctKeys_of_ne (by decide +kernel)
  have hok : (arbitrate "101" recovery [silence, powerLoss] silent).1.isOk = true := by
    simp only [arbitrate, arbitrateFrom, MasterRule.verdict, ActiveRun.find, sorted_recovery]
    decide +kernel
  cases hresult : arbitrate "101" recovery [silence, powerLoss] silent with
  | mk result u =>
    cases result with
    | error e =>
      rw [hresult] at hok
      simp [Except.isOk, Except.toBool] at hok
    | ok a =>
      refine (@arbitrate_fresh_iff _ _ _ 0 _ _ _ _ _ silent_reliable hkeys hresult rfl (by decide)
        (by decide +kernel) (by decide +kernel)).mpr (Or.inr ⟨⟨⟨none, []⟩, rfl, rfl⟩, ?_⟩)
      intro latest hlatest
      rw [trailing_recovery] at hlatest
      simp at hlatest

/-- The timer of the silence runs on behind the loss of power, and through a computed reading. -/
theorem silence_not_fresh :
    (DistinctKeys "101" [powerLoss, silence] ∧
      (arbitrate "101" recovery [powerLoss, silence] silent).1.isOk = true ∧
      ¬ silence.Fresh ⟨"101", "Tag8", "0"⟩ recovery
        (arbitrate "101" recovery [powerLoss, silence] silent).2) ∧
    (arbitrate "101" relapse [silence] silent).1.isOk = true ∧
      ¬ silence.Fresh ⟨"101", "Tag8", "0"⟩ relapse
        (arbitrate "101" relapse [silence] silent).2 := by
  simp only [arbitrate, arbitrateFrom, MasterRule.verdict, ActiveRun.find, sorted_recovery,
    sorted_relapse]
  refine ⟨⟨distinctKeys_of_ne (by decide +kernel), by decide +kernel, ?_⟩, by decide +kernel, ?_⟩
  · intro h
    exact absurd (h.gone trailing_recovery) (by decide +kernel)
  · intro h
    have hfirst : (silence.trailing relapse).head?.map (·.time) = some 600000000 := by
      rw [MasterRule.trailing, MasterRule.relevant, sorted_relapse]
      decide +kernel
    have hfalse : ∃ s ∈ silence.relevant relapse, silence.trueAt s = false := by
      rw [MasterRule.relevant, sorted_relapse]
      decide +kernel
    obtain ⟨first, hhead, htime⟩ := Option.map_eq_some_iff.mp hfirst
    have hle := h.recent first 0 hhead hfalse (by decide +kernel)
    rw [htime] at hle
    exact absurd hle (by decide)

end FaultDesk
