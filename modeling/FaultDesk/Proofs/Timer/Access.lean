import FaultDesk.Timer.Basic

/-!
What an operation on the timers can do to the records. `Moves` says it once, for records that may
fail as well; the laws of the operations on records that never fail are read off beside it.
-/

namespace FaultDesk

theorem Stamp.eq_of_instant?_utc {i j : Instant} (h : (Stamp.utc i).instant? = some j) : j = i := by
  have hcheck : Instant.check? (i - 0) = some j := h
  obtain ⟨hi, -⟩ := Instant.check?_eq_some hcheck
  exact hi.symm.trans (Int.sub_zero i)

namespace Timers

/-- The records after an access has been noted. -/
def noted (t : Timers) (what : TimerAccess) (key : TimerKey) : Timers :=
  { t with count := t.count + 1, calls := (what, key) :: t.calls }

/-- The records after a stamp has been put under a key. -/
def written (t : Timers) (key : TimerKey) (s : Stamp) : Timers :=
  { t.noted .put key with records := replaced t.records key (t.kept s) }

/-- The records after a key has been dropped. -/
def dropped (t : Timers) (key : TimerKey) : Timers :=
  { t.noted .delete key with records := t.records.filter (·.1 ≠ key) }

/-- How often the timer of a key has been started, by the accesses noted. -/
def starts (t : Timers) (key : TimerKey) : Nat := t.calls.count (.put, key)

@[simp] theorem find?_noted (t : Timers) (what : TimerAccess) (key other : TimerKey) :
    (t.noted what key).find? other = t.find? other := rfl

theorem find?_written (t : Timers) (key other : TimerKey) (s : Stamp) :
    (t.written key s).find? other = if other = key then some (t.kept s) else t.find? other :=
  lookup_replaced ..

theorem lookup_filter_ne (records : List (TimerKey × Stamp)) (key other : TimerKey) :
    (records.filter (·.1 ≠ key)).lookup other =
      if other = key then none else records.lookup other := by
  induction records with
  | nil => simp
  | cons r rest ih =>
    obtain ⟨k, v⟩ := r
    by_cases hk : k = key
    · subst k
      rw [List.filter_cons_of_neg (by simp), ih]
      by_cases h : other = key
      · simp [h]
      · simp [List.lookup_cons, beq_eq_false_iff_ne.mpr h, h]
    · rw [List.filter_cons_of_pos (by simpa using hk)]
      by_cases h : other = k
      · subst other
        simp [hk]
      · simp only [List.lookup_cons, beq_eq_false_iff_ne.mpr h]
        exact ih

theorem find?_dropped (t : Timers) (key other : TimerKey) :
    (t.dropped key).find? other = if other = key then none else t.find? other :=
  lookup_filter_ne ..

theorem starts_noted_le (t : Timers) (what : TimerAccess) (key other : TimerKey) :
    t.starts other ≤ (t.noted what key).starts other :=
  List.count_le_count_cons ..

theorem starts_noted_put (t : Timers) (key : TimerKey) :
    (t.noted .put key).starts key = t.starts key + 1 := by
  simp [starts, noted]

theorem starts_noted_put_of_ne (t : Timers) {key other : TimerKey} (h : other ≠ key) :
    (t.noted .put key).starts other = t.starts other := by
  simp [starts, noted, Ne.symm h]

/-- One access after another, all to keys of a kind. An access that only reads or that fails leaves
the records alone. -/
inductive Moves (on : TimerKey → Prop) : Timers → Timers → Prop
  | refl (t : Timers) : Moves on t t
  | note {t u : Timers} {key : TimerKey} (what : TimerAccess) :
      Moves on t u → on key → Moves on t (u.noted what key)
  | write {t u : Timers} {key : TimerKey} (s : Stamp) :
      Moves on t u → on key → Moves on t (u.written key s)
  | drop {t u : Timers} {key : TimerKey} : Moves on t u → on key → Moves on t (u.dropped key)

theorem Moves.trans {on : TimerKey → Prop} {t u v : Timers} (h : Moves on t u)
    (h' : Moves on u v) : Moves on t v := by
  induction h' with
  | refl => exact h
  | note what _ hk ih => exact .note what ih hk
  | write s _ hk ih => exact .write s ih hk
  | drop _ hk ih => exact .drop ih hk

theorem Moves.mono {on wide : TimerKey → Prop} (hw : ∀ k, on k → wide k) {t u : Timers}
    (h : Moves on t u) : Moves wide t u := by
  induction h with
  | refl => exact .refl _
  | note what _ hk ih => exact .note what ih (hw _ hk)
  | write s _ hk ih => exact .write s ih (hw _ hk)
  | drop _ hk ih => exact .drop ih (hw _ hk)

theorem Moves.find?_other {on : TimerKey → Prop} {t u : Timers} (h : Moves on t u)
    {key : TimerKey} (hk : ¬ on key) : u.find? key = t.find? key := by
  induction h with
  | refl => rfl
  | note what _ _ ih => exact ih
  | write s _ ho ih =>
    have hne : key ≠ _ := fun he => hk (by rw [he]; exact ho)
    rw [find?_written, if_neg hne, ih]
  | drop _ ho ih =>
    have hne : key ≠ _ := fun he => hk (by rw [he]; exact ho)
    rw [find?_dropped, if_neg hne, ih]

theorem Moves.durable_eq {on : TimerKey → Prop} {t u : Timers} (h : Moves on t u) :
    u.durable = t.durable := by
  induction h with
  | refl => rfl
  | note _ _ _ ih => exact ih
  | write _ _ _ ih => exact ih
  | drop _ _ ih => exact ih

theorem Moves.starts_le {on : TimerKey → Prop} {t u : Timers} (h : Moves on t u)
    (key : TimerKey) : t.starts key ≤ u.starts key := by
  induction h with
  | refl => exact Nat.le_refl _
  | note what _ _ ih => exact Nat.le_trans ih (starts_noted_le ..)
  | write s _ _ ih => exact Nat.le_trans ih (starts_noted_le ..)
  | drop _ _ ih => exact Nat.le_trans ih (starts_noted_le ..)

/-- A key without a record gets one only when its timer is started. -/
theorem Moves.find?_eq_none {on : TimerKey → Prop} {t u : Timers} (h : Moves on t u)
    {key : TimerKey} (hn : t.find? key = none) (hs : u.starts key = t.starts key) :
    u.find? key = none := by
  induction h with
  | refl => exact hn
  | @note u k what hm _ ih =>
    have hle := hm.starts_le key
    have hle' := starts_noted_le u what k key
    exact ih (by omega)
  | @write u k s hm _ ih =>
    have hle := hm.starts_le key
    by_cases hk : key = k
    · subst k
      have hput := starts_noted_put u key
      change (u.noted .put key).starts key = _ at hs
      omega
    · rw [find?_written, if_neg hk]
      have hput := starts_noted_put_of_ne u hk
      change (u.noted .put k).starts key = _ at hs
      exact ih (by omega)
  | @drop u k hm _ ih =>
    have hle := hm.starts_le key
    have hle' := starts_noted_le u .delete k key
    change (u.noted .delete k).starts key = _ at hs
    rw [find?_dropped]
    split
    next => rfl
    next => exact ih (by omega)

/-! ## The operations are moves -/

theorem access_snd (t : Timers) (what : TimerAccess) (key : TimerKey) :
    (t.access what key).2 = t.noted what key := by
  simp only [access]
  split
  next => rfl
  next => split <;> rfl

theorem get_snd (t : Timers) (key : TimerKey) : (t.get key).2 = t.noted .get key := by
  have h := t.access_snd .get key
  unfold get
  split
  next he => rw [← h, he]
  next he => rw [← h, he]

theorem put_snd (t : Timers) (key : TimerKey) (s : Stamp) :
    (t.put key s).2 = t.noted .put key ∨ (t.put key s).2 = t.written key s := by
  have h := t.access_snd .put key
  unfold put
  split
  next he => exact Or.inl (by rw [← h, he])
  next he =>
    right
    rw [he] at h
    subst h
    rfl

theorem clear_eq (t : Timers) (key : TimerKey) :
    t.clear key = t.noted .delete key ∨ t.clear key = t.dropped key := by
  have h := t.access_snd .delete key
  unfold clear delete
  split
  next he => exact Or.inl (by rw [← h, he])
  next he =>
    right
    rw [he] at h
    subst h
    rfl

theorem clear_moves (t : Timers) (key : TimerKey) : Moves (· = key) t (t.clear key) := by
  rcases t.clear_eq key with h | h
  · rw [h]
    exact .note _ (.refl t) rfl
  · rw [h]
    exact .drop (.refl t) rfl

theorem observe_moves (t : Timers) (key : TimerKey) (at_ : Stamp) :
    Moves (· = key) t (t.observe key at_).2 := by
  have hget : Moves (· = key) t (t.get key).2 := by
    rw [get_snd]
    exact .note _ (.refl t) rfl
  unfold observe
  split
  next he => simpa [he] using hget
  next he => simpa [he] using hget
  next u he =>
    have hu : Moves (· = key) t u := by simpa [he] using hget
    split
    next => exact hu
    next i _ =>
      have hput : Moves (· = key) t (u.put key (.utc i)).2 := by
        rcases u.put_snd key (.utc i) with h | h
        · rw [h]
          exact .note _ hu rfl
        · rw [h]
          exact .write _ hu rfl
      split
      next hp => simpa [hp] using hput
      next hp => simpa [hp] using hput

theorem sustained_moves (t : Timers) (key : TimerKey) (d : Option Duration) (at_ : Stamp)
    (since : Option Stamp) : Moves (· = key) t (t.sustained key d at_ since).2 := by
  unfold sustained
  split
  next => exact .refl t
  next d =>
    split
    next => exact .refl t
    next =>
      have hobserve := t.observe_moves key (since.getD at_)
      split
      next he => simpa [he] using hobserve
      next he => simpa [he] using hobserve

/-! ## Records that never fail -/

structure Reliable (t : Timers) : Prop where
  present : t.present = true
  steady : ∀ n what, t.outage n what = false

theorem empty_reliable (durable : Bool) : (empty durable).Reliable := ⟨rfl, fun _ _ => rfl⟩

theorem Moves.reliable {on : TimerKey → Prop} {t u : Timers} (h : Moves on t u)
    (hr : t.Reliable) : u.Reliable := by
  induction h with
  | refl => exact hr
  | note _ _ _ ih => exact ⟨ih.present, ih.steady⟩
  | write _ _ _ ih => exact ⟨ih.present, ih.steady⟩
  | drop _ _ ih => exact ⟨ih.present, ih.steady⟩

theorem Reliable.access_eq {t : Timers} (hr : t.Reliable) (what : TimerAccess) (key : TimerKey) :
    t.access what key = (.ok (), t.noted what key) := by
  simp [access, noted, hr.present, hr.steady]

theorem Reliable.get_eq {t : Timers} (hr : t.Reliable) (key : TimerKey) :
    t.get key = (.ok ((t.find? key).map t.recalled), t.noted .get key) := by
  unfold get
  rw [hr.access_eq]
  rfl

theorem Reliable.put_eq {t : Timers} (hr : t.Reliable) (key : TimerKey) (s : Stamp) :
    t.put key s = (.ok (), t.written key s) := by
  unfold put
  rw [hr.access_eq]
  rfl

theorem Reliable.clear_eq {t : Timers} (hr : t.Reliable) (key : TimerKey) :
    t.clear key = t.dropped key := by
  unfold clear delete
  rw [hr.access_eq]
  rfl

theorem Reliable.find?_clear {t : Timers} (hr : t.Reliable) (key other : TimerKey) :
    (t.clear key).find? other = if other = key then none else t.find? other := by
  rw [hr.clear_eq, find?_dropped]

theorem Reliable.observe_running {t : Timers} (hr : t.Reliable) {key : TimerKey} {s : Stamp}
    (hf : t.find? key = some s) (at_ : Stamp) :
    t.observe key at_ = (.ok (t.recalled s), t.noted .get key) := by
  unfold observe
  rw [hr.get_eq, hf]
  rfl

theorem Reliable.observe_fresh {t : Timers} (hr : t.Reliable) {key : TimerKey}
    (hf : t.find? key = none) {at_ : Stamp} {i : Instant} (hi : at_.instant? = some i) :
    t.observe key at_ = (.ok (.utc i), (t.noted .get key).written key (.utc i)) := by
  have hnoted : (t.noted .get key).Reliable := ⟨hr.present, hr.steady⟩
  unfold observe
  rw [hr.get_eq, hf]
  simp only [Option.map_none, hi, hnoted.put_eq]

/-- What is kept of a UTC stamp is read as that stamp. -/
theorem recalled_kept_utc (t : Timers) (i : Instant) : t.recalled (t.kept (.utc i)) = .utc i := by
  unfold recalled kept
  split <;> rfl

theorem kept_congr {t u : Timers} (h : u.durable = t.durable) (s : Stamp) :
    u.kept s = t.kept s := by
  simp only [kept, h]

theorem recalled_congr {t u : Timers} (h : u.durable = t.durable) (s : Stamp) :
    u.recalled s = t.recalled s := by
  simp only [recalled, h]

/-- Whether the time from a start to a stamp reaches a duration. -/
def lasted (d : Duration) (start at_ : Stamp) : Except Failure Bool := do
  let run ← spanSince start at_
  let needed ← d.span
  return decide (needed ≤ run)

theorem lasted_utc_iff {d : Duration} {i j : Instant} (hj : 0 ≤ j ∧ j < Instant.limit) :
    lasted d (.utc i) (.utc j) = .ok true ↔ ∃ w, d.span = .ok w ∧ w ≤ j - i := by
  have hspan : spanSince (.utc i) (.utc j) = .ok (j - i) := by
    unfold spanSince
    rw [Stamp.instant?_utc hj]
    simp [Stamp.utc]
  unfold lasted
  rw [hspan]
  cases d.span with
  | error e => simp [bind, Except.bind]
  | ok w => simp [bind, Except.bind, pure, Except.pure]

theorem Reliable.sustained_running {t : Timers} (hr : t.Reliable) {key : TimerKey} {s : Stamp}
    (hf : t.find? key = some s) {d : Duration} (hd : d.isInstant = false) (at_ : Stamp)
    (since : Option Stamp) :
    t.sustained key (some d) at_ since = (lasted d (t.recalled s) at_, t.noted .get key) := by
  unfold sustained
  rw [hr.observe_running hf]
  simp only [hd, Bool.false_eq_true, ↓reduceIte]
  rfl

theorem Reliable.sustained_fresh {t : Timers} (hr : t.Reliable) {key : TimerKey}
    (hf : t.find? key = none) {d : Duration} (hd : d.isInstant = false) {at_ : Stamp}
    {since : Option Stamp} {i : Instant} (hi : (since.getD at_).instant? = some i) :
    t.sustained key (some d) at_ since =
      (lasted d (.utc i) at_, (t.noted .get key).written key (.utc i)) := by
  unfold sustained
  rw [hr.observe_fresh hf hi]
  simp only [hd, Bool.false_eq_true, ↓reduceIte]
  rfl

/-- A time that cannot be kept starts no timer. -/
theorem Reliable.sustained_unstarted {t : Timers} (hr : t.Reliable) {key : TimerKey}
    (hf : t.find? key = none) {d : Duration} (hd : d.isInstant = false) {at_ : Stamp}
    {since : Option Stamp} (hi : (since.getD at_).instant? = none) :
    t.sustained key (some d) at_ since = (.ok false, t.noted .get key) := by
  have ho : t.observe key (since.getD at_) = (.error .timeOutOfRange, t.noted .get key) := by
    unfold observe
    rw [hr.get_eq, hf]
    simp [hi]
  unfold sustained
  rw [ho]
  simp only [hd, Bool.false_eq_true, ↓reduceIte]

/-- A timer that has lasted long enough has a record. -/
theorem Reliable.find?_of_sustained {t u : Timers} (hr : t.Reliable) {key : TimerKey}
    {d : Duration} (hd : d.isInstant = false) {at_ : Stamp} {since : Option Stamp}
    (h : t.sustained key (some d) at_ since = (.ok true, u)) : ∃ s, u.find? key = some s := by
  cases hf : t.find? key with
  | some s =>
    rw [hr.sustained_running hf hd] at h
    have hu := (Prod.mk.inj h).2
    exact ⟨s, by rw [← hu, find?_noted, hf]⟩
  | none =>
    cases hi : (since.getD at_).instant? with
    | none =>
      rw [hr.sustained_unstarted hf hd hi] at h
      simp at h
    | some i =>
      rw [hr.sustained_fresh hf hd hi] at h
      have hu := (Prod.mk.inj h).2
      exact ⟨_, by rw [← hu, find?_written, if_pos rfl]⟩

end Timers

end FaultDesk
