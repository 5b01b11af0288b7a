import FaultDesk.Proofs.Timer.Access

/-!
Timers side by side. Two states of the timers that agree on some keys answer alike for these keys and
agree on them afterwards, and what is done to other keys on one side does not matter.
-/

namespace FaultDesk

namespace Timers

/-- Timers that agree on keys of a kind. Whether an access fails is the same on both sides, and does
not change with the number of accesses made before. -/
structure Alike (on : TimerKey → Prop) (t u : Timers) : Prop where
  durable : u.durable = t.durable
  present : u.present = t.present
  outage : ∀ m n what, u.outage m what = t.outage n what
  find? : ∀ key, on key → u.find? key = t.find? key

theorem Moves.store_eq {on : TimerKey → Prop} {t u : Timers} (h : Moves on t u) :
    u.durable = t.durable ∧ u.present = t.present ∧ u.outage = t.outage := by
  induction h with
  | refl => exact ⟨rfl, rfl, rfl⟩
  | note _ _ _ ih => exact ih
  | write _ _ _ ih => exact ih
  | drop _ _ ih => exact ih

namespace Alike

variable {on : TimerKey → Prop} {t u v : Timers} {key : TimerKey}

theorem symm (h : Alike on t u) : Alike on u t :=
  ⟨h.durable.symm, h.present.symm, fun m n what => (h.outage n m what).symm,
    fun key hk => (h.find? key hk).symm⟩

theorem of_reliable (ht : t.Reliable) (hu : u.Reliable) (hdurable : u.durable = t.durable)
    (hfind : ∀ key, on key → u.find? key = t.find? key) : Alike on t u :=
  ⟨hdurable, hu.present.trans ht.present.symm,
    fun m n what => (hu.steady m what).trans (ht.steady n what).symm, hfind⟩

/-- What is done to other keys on one side does not matter. -/
theorem moved {other : TimerKey → Prop} (h : Alike on t u) (hm : Moves other u v)
    (hother : ∀ key, other key → ¬ on key) : Alike on t v := by
  obtain ⟨hdurable, hpresent, houtage⟩ := hm.store_eq
  refine ⟨hdurable.trans h.durable, hpresent.trans h.present, ?_, ?_⟩
  · intro m n what
    rw [houtage]
    exact h.outage m n what
  · intro key hk
    rw [hm.find?_other fun ho => hother key ho hk]
    exact h.find? key hk

theorem recalled_eq (h : Alike on t u) : u.recalled = t.recalled := by
  funext s
  simp only [recalled, h.durable]

theorem replaced (h : Alike on t u) (key : TimerKey) (s : Stamp) :
    Alike on { t with records := Timers.replaced t.records key (t.kept s) }
      { u with records := Timers.replaced u.records key (u.kept s) } := by
  refine ⟨h.durable, h.present, h.outage, ?_⟩
  intro other ho
  have hfind := h.find? other ho
  simp only [Timers.find?, lookup_replaced, kept_congr h.durable] at hfind ⊢
  rw [hfind]

theorem filtered (h : Alike on t u) (key : TimerKey) :
    Alike on { t with records := t.records.filter (·.1 ≠ key) }
      { u with records := u.records.filter (·.1 ≠ key) } := by
  refine ⟨h.durable, h.present, h.outage, ?_⟩
  intro other ho
  have hfind := h.find? other ho
  simp only [Timers.find?, lookup_filter_ne] at hfind ⊢
  rw [hfind]

end Alike

/-! ## The operations side by side -/

/-- Two outcomes with one result that leave timers which agree. -/
structure SameOutcome {α : Type} (on : TimerKey → Prop) (x y : α × Timers) : Prop where
  result : y.1 = x.1
  timers : Alike on x.2 y.2

theorem SameOutcome.split {α : Type} {on : TimerKey → Prop} {x y : α × Timers}
    (h : SameOutcome on x y) : ∃ a t u, x = (a, t) ∧ y = (a, u) ∧ Alike on t u :=
  ⟨x.1, x.2, y.2, rfl, Prod.ext h.result rfl, h.timers⟩

namespace Alike

variable {on : TimerKey → Prop} {t u : Timers} {key : TimerKey}

theorem access (h : Alike on t u) (what : TimerAccess) (key : TimerKey) :
    SameOutcome on (t.access what key) (u.access what key) := by
  constructor
  · simp only [Timers.access, h.outage u.count t.count, h.present]
    split
    next => rfl
    next => split <;> rfl
  · rw [access_snd, access_snd]
    exact ⟨h.durable, h.present, fun m n => h.outage m n, h.find?⟩

theorem get (h : Alike on t u) (hk : on key) : SameOutcome on (t.get key) (u.get key) := by
  obtain ⟨a, t', u', ht, hu, h'⟩ := (h.access .get key).split
  unfold Timers.get
  rw [ht, hu]
  cases a with
  | error e => exact ⟨rfl, h'⟩
  | ok =>
    refine ⟨?_, h'⟩
    dsimp only
    rw [h'.find? key hk, h'.recalled_eq]

theorem put (h : Alike on t u) (key : TimerKey) (s : Stamp) :
    SameOutcome on (t.put key s) (u.put key s) := by
  obtain ⟨a, t', u', ht, hu, h'⟩ := (h.access .put key).split
  unfold Timers.put
  rw [ht, hu]
  cases a with
  | error e => exact ⟨rfl, h'⟩
  | ok => exact ⟨rfl, h'.replaced key s⟩

theorem clear (h : Alike on t u) (key : TimerKey) : Alike on (t.clear key) (u.clear key) := by
  obtain ⟨a, t', u', ht, hu, h'⟩ := (h.access .delete key).split
  unfold Timers.clear Timers.delete
  rw [ht, hu]
  cases a with
  | error e => exact h'
  | ok => exact h'.filtered key

theorem observe (h : Alike on t u) (hk : on key) (at_ : Stamp) :
    SameOutcome on (t.observe key at_) (u.observe key at_) := by
  obtain ⟨a, t', u', ht, hu, h'⟩ := (h.get hk).split
  unfold Timers.observe
  rw [ht, hu]
  cases a with
  | error e => exact ⟨rfl, h'⟩
  | ok found =>
    cases found with
    | some s => exact ⟨rfl, h'⟩
    | none =>
      cases at_.instant? with
      | none => exact ⟨rfl, h'⟩
      | some i =>
        obtain ⟨b, t'', u'', ht', hu', h''⟩ := (h'.put key (.utc i)).split
        dsimp only
        rw [ht', hu']
        cases b with
        | error e => exact ⟨rfl, h''⟩
        | ok => exact ⟨rfl, h''⟩

theorem sustained (h : Alike on t u) (hk : on key) (d : Option Duration) (at_ : Stamp)
    (since : Option Stamp) :
    SameOutcome on (t.sustained key d at_ since) (u.sustained key d at_ since) := by
  unfold Timers.sustained
  cases d with
  | none => exact ⟨rfl, h⟩
  | some d =>
    dsimp only
    split
    next => exact ⟨rfl, h⟩
    next =>
      obtain ⟨a, t', u', ht, hu, h'⟩ := (h.observe hk (since.getD at_)).split
      rw [ht, hu]
      cases a with
      | error e => exact ⟨rfl, h'⟩
      | ok start => exact ⟨rfl, h'⟩

end Alike

end Timers

end FaultDesk
