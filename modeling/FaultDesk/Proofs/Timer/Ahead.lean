import FaultDesk.Proofs.Timer.Provenance

/-!
Timers side by side, some of which have been started on one side only. The questions about one sample
all count from its time; a timer that one side has started at it already would be started by the other
side with the same time, so that the answers are the same.
-/

namespace FaultDesk

namespace Timers

variable {i : Instant} {key : TimerKey} {t t' u u' : Timers} {what : TimerAccess}

/-! ## Accesses that are granted -/

/-- Whether all accesses of a kind are granted. -/
structure Grants (t : Timers) (what : TimerAccess) : Prop where
  present : t.present = true
  steady : ∀ n, t.outage n what = false

theorem Grants.access_eq (h : t.Grants what) (key : TimerKey) :
    t.access what key = (.ok (), t.noted what key) := by
  simp [access, noted, h.present, h.steady]

theorem Grants.get_eq (h : t.Grants .get) (key : TimerKey) :
    t.get key = (.ok ((t.find? key).map t.recalled), t.noted .get key) := by
  unfold get
  rw [h.access_eq]
  rfl

theorem Grants.put_eq (h : t.Grants .put) (key : TimerKey) (s : Stamp) :
    t.put key s = (.ok (), t.written key s) := by
  unfold put
  rw [h.access_eq]
  rfl

theorem Grants.moved {on : TimerKey → Prop} (h : t.Grants what) (hm : Moves on t u) :
    u.Grants what := by
  obtain ⟨-, hpresent, houtage⟩ := hm.store_eq
  refine ⟨hpresent.trans h.present, ?_⟩
  rw [houtage]
  exact h.steady

/-- Where what fails does not change, one access that is granted stands for all. -/
theorem grants_of_access (hfixed : ∀ m n what, t.outage m what = t.outage n what)
    (h : (t.access what key).1 = .ok ()) : t.Grants what := by
  unfold access at h
  split at h
  next => cases h
  next hout =>
    split at h
    next hpresent => exact ⟨hpresent, fun n => (hfixed n t.count what).trans (by simpa using hout)⟩
    next => cases h

theorem access_of_get {found : Option Stamp} (h : t.get key = (.ok found, u)) :
    (t.access .get key).1 = .ok () := by
  unfold get at h
  split at h
  next => cases h
  next heq => rw [heq]

theorem find?_put_of_refused (h : (t.access .put key).1 ≠ .ok ()) (s : Stamp) :
    (t.put key s).2.find? key = t.find? key := by
  have hnoted := t.access_snd .put key
  unfold put
  split
  next heq =>
    rw [heq] at hnoted
    obtain rfl : _ = t.noted .put key := hnoted
    rfl
  next heq => exact absurd (by rw [heq]) h

/-- A timer that has been started by observing it could be read and written. -/
theorem grants_of_started (hfixed : ∀ m n what, t.outage m what = t.outage n what)
    (hnone : t.find? key = none) {at_ x : Stamp} (h : (t.observe key at_).2.find? key = some x) :
    t.Grants .get ∧ t.Grants .put := by
  have hget := t.get_snd key
  unfold observe at h
  rcases hfound : t.get key with ⟨found, v⟩
  rw [hfound] at h hget
  obtain rfl : v = t.noted .get key := hget
  have hstill : (t.noted .get key).find? key ≠ some x := by
    rw [find?_noted, hnone]
    exact fun he => by cases he
  cases found with
  | error e => exact absurd h hstill
  | ok found =>
    refine ⟨grants_of_access hfixed (access_of_get hfound), ?_⟩
    cases found with
    | some s => exact absurd h hstill
    | none =>
      dsimp only at h
      split at h
      next => exact absurd h hstill
      next j _ =>
        by_cases hput : ((t.noted .get key).access .put key).1 = .ok ()
        · have hgrants : (t.noted .get key).Grants .put := grants_of_access hfixed hput
          exact ⟨hgrants.present, hgrants.steady⟩
        · have hsame := find?_put_of_refused hput (.utc j)
          rw [← hsame] at hstill
          split at h
          next heq => exact absurd h (by rwa [heq] at hstill)
          next heq => exact absurd h (by rwa [heq] at hstill)

/-! ## Timers that have been started on one side -/

/-- The timer of a key has been started at an instant on the left, and can still be started at it on the
right. -/
structure Early (i : Instant) (key : TimerKey) (t u : Timers) : Prop where
  started : t.find? key = some (t.kept (.utc i))
  unstarted : u.find? key = none
  dated : (Stamp.utc i).instant? = some i
  reads : t.Grants .get
  writes : t.Grants .put

/-- Timers with the same records, but for those that have been started at an instant on the left
only. What fails is the same on both sides, and does not change with the number of accesses made
before. -/
structure Ahead (i : Instant) (t u : Timers) : Prop where
  durable : u.durable = t.durable
  present : u.present = t.present
  outage : ∀ m n what, u.outage m what = t.outage n what
  find? : ∀ key, u.find? key = t.find? key ∨ Early i key t u

/-- Two outcomes with one result, of which the left one leaves timers that are ahead. -/
structure AheadOutcome {α : Type} (i : Instant) (x y : α × Timers) : Prop where
  result : y.1 = x.1
  timers : Ahead i x.2 y.2

theorem AheadOutcome.split {α : Type} {x y : α × Timers} (h : AheadOutcome i x y) :
    ∃ a t u, x = (a, t) ∧ y = (a, u) ∧ Ahead i t u :=
  ⟨x.1, x.2, y.2, rfl, Prod.ext h.result rfl, h.timers⟩

theorem Early.moved {on : TimerKey → Prop} (h : Early i key t u) (ht : Moves on t t')
    (hstays : t'.find? key = t.find? key) (hnone : u'.find? key = none) : Early i key t' u' := by
  refine ⟨?_, hnone, h.dated, h.reads.moved ht, h.writes.moved ht⟩
  rw [hstays, h.started, kept_congr ht.durable_eq]

namespace Ahead

theorem refl (hfixed : ∀ m n what, t.outage m what = t.outage n what) : Ahead i t t :=
  ⟨rfl, rfl, hfixed, fun _ => Or.inl rfl⟩

theorem alike (h : Ahead i t u) (hfind : u.find? key = t.find? key) : Alike (· = key) t u :=
  ⟨h.durable, h.present, h.outage, fun _ hk => by rw [hk]; exact hfind⟩

theorem grants (h : Ahead i t u) (hgrants : t.Grants what) : u.Grants what :=
  ⟨h.present.trans hgrants.present, fun n => (h.outage n 0 what).trans (hgrants.steady 0)⟩

/-- Only the key that is touched has to be looked at. -/
theorem moved (h : Ahead i t u) (ht : Moves (· = key) t t') (hu : Moves (· = key) u u')
    (hkey : u'.find? key = t'.find? key ∨ Early i key t' u') : Ahead i t' u' := by
  obtain ⟨htd, htp, hto⟩ := ht.store_eq
  obtain ⟨hud, hup, huo⟩ := hu.store_eq
  refine ⟨?_, ?_, ?_, ?_⟩
  · rw [hud, htd, h.durable]
  · rw [hup, htp, h.present]
  · rw [huo, hto]
    exact h.outage
  · intro other
    by_cases hk : other = key
    · rw [hk]
      exact hkey
    · have hleft := ht.find?_other hk
      have hright := hu.find?_other hk
      rcases h.find? other with hsame | hearly
      · exact Or.inl (by rw [hleft, hright, hsame])
      · exact Or.inr (hearly.moved ht hleft (hright.trans hearly.unstarted))

theorem clear (h : Ahead i t u) (key : TimerKey) : Ahead i (t.clear key) (u.clear key) := by
  refine h.moved (t.clear_moves key) (u.clear_moves key) ?_
  rcases h.find? key with hsame | hearly
  · exact Or.inl (((h.alike hsame).clear key).find? key rfl)
  · have hright : (u.clear key).find? key = none := by
      rcases u.find?_clear key with ⟨hstays, -⟩ | hgone
      · exact hstays.trans hearly.unstarted
      · exact hgone
    rcases t.find?_clear key with ⟨hstays, -⟩ | hgone
    · exact Or.inr (hearly.moved (t.clear_moves key) hstays hright)
    · exact Or.inl (hright.trans hgone.symm)

theorem observe (h : Ahead i t u) (key : TimerKey) :
    AheadOutcome i (t.observe key (.utc i)) (u.observe key (.utc i)) := by
  have hmoved := h.moved (t.observe_moves key (.utc i)) (u.observe_moves key (.utc i))
  rcases h.find? key with hsame | hearly
  · have halike := (h.alike hsame).observe rfl (.utc i)
    exact ⟨halike.result, hmoved (Or.inl (halike.timers.find? key rfl))⟩
  · -- the left side goes on from the instant, and the right side starts at it
    have hleft : t.observe key (.utc i) = (.ok (.utc i), t.noted .get key) := by
      unfold Timers.observe
      rw [hearly.reads.get_eq, hearly.started, Option.map_some, recalled_kept_utc]
    have hright : u.observe key (.utc i) =
        (.ok (.utc i), (u.noted .get key).written key (.utc i)) := by
      have hwrites : (u.noted .get key).Grants .put :=
        ⟨(h.grants hearly.writes).present, (h.grants hearly.writes).steady⟩
      unfold Timers.observe
      rw [(h.grants hearly.reads).get_eq, hearly.unstarted]
      simp only [Option.map_none, hearly.dated, hwrites.put_eq]
    refine ⟨by rw [hleft, hright], hmoved (Or.inl ?_)⟩
    rw [hleft, hright, find?_written, if_pos rfl, find?_noted, hearly.started]
    exact congrArg some (kept_congr h.durable _)

/-- A timer that is observed on the left only is ahead, unless it has been running. -/
theorem observed (h : Ahead i t u) (key : TimerKey) : Ahead i (t.observe key (.utc i)).2 u := by
  have hmoves := t.observe_moves key (.utc i)
  refine h.moved hmoves (.refl u) ?_
  rcases t.find?_observe key (.utc i) with hsame | ⟨hnone, j, hj, hmade⟩
  · rcases h.find? key with heq | hearly
    · exact Or.inl (heq.trans hsame.symm)
    · exact Or.inr (hearly.moved hmoves hsame hearly.unstarted)
  · obtain rfl := Stamp.eq_of_instant?_utc hj
    have hfixed (m n : Nat) (what : TimerAccess) : t.outage m what = t.outage n what :=
      (h.outage 0 m what).symm.trans (h.outage 0 n what)
    obtain ⟨hget, hput⟩ := grants_of_started hfixed hnone hmade
    right
    refine ⟨?_, ?_, hj, hget.moved hmoves, hput.moved hmoves⟩
    · rw [hmade, kept_congr hmoves.durable_eq]
    · rcases h.find? key with heq | hearly
      · exact heq.trans hnone
      · exact hearly.unstarted

theorem sustained (h : Ahead i t u) (key : TimerKey) (d : Option Duration) (at_ : Stamp) :
    AheadOutcome i (t.sustained key d at_ (some (.utc i)))
      (u.sustained key d at_ (some (.utc i))) := by
  unfold Timers.sustained
  cases d with
  | none => exact ⟨rfl, h⟩
  | some d =>
    dsimp only [Option.getD_some]
    split
    next => exact ⟨rfl, h⟩
    next =>
      obtain ⟨a, t', u', ht, hu, h'⟩ := (h.observe key).split
      rw [ht, hu]
      cases a with
      | error e => exact ⟨rfl, h'⟩
      | ok start => exact ⟨rfl, h'⟩

/-- A question that is put to the left side only leaves it ahead. -/
theorem asked (h : Ahead i t u) (key : TimerKey) (d : Option Duration) (at_ : Stamp) :
    Ahead i (t.sustained key d at_ (some (.utc i))).2 u := by
  have hobserved := h.observed key
  unfold Timers.sustained
  cases d with
  | none => exact h
  | some d =>
    dsimp only [Option.getD_some]
    split
    next => exact h
    next =>
      split
      next heq => rwa [heq] at hobserved
      next heq => rwa [heq] at hobserved

end Ahead

end Timers

/-- A dialogue whose questions all count from the instant has one result on both sides. -/
theorem Dialogue.hold_ahead {α : Type} {d : Dialogue α} {i : Instant} {t u : Timers}
    (hd : d.Asking fun _ since => since = i) (h : Timers.Ahead i t u) :
    Timers.AheadOutcome i (d.hold t) (d.hold u) := by
  induction d generalizing t u with
  | ended => exact ⟨rfl, h⟩
  | drop key rest ih => exact ih hd (h.clear key)
  | ask key d since at_ rest ih =>
    obtain ⟨rfl, hrest⟩ := hd
    obtain ⟨a, t', u', ht, hu, h'⟩ := (h.sustained key d (.utc at_)).split
    rw [hold_ask, hold_ask, ht, hu]
    exact ih a (hrest a) h'

end FaultDesk
