import FaultDesk.Proofs.Sync.CheckpointKept
import FaultDesk.Proofs.Time.Hours
import FaultDesk.Proofs.Time.IsoRange

/-!
What reading a checkpoint comes to, whatever is stored under its key and however the database fails.
It is a time that is not ahead of the clock: the stored one where that is past, and the floor
otherwise. The one exception is a stamp at the edge of the calendar that its offset takes out of the
calendar: for that there is neither a time nor a fallback.
-/

namespace FaultDesk

/-! ## Stamps at the edge of the calendar -/

namespace Stamp

variable {text : String} {s : Stamp}

/-- A stamp that shows no instant of the calendar, for its offset. -/
def Outside (s : Stamp) : Prop :=
  ∃ o, s.offset = some o ∧ (s.wall - o < 0 ∨ Instant.limit ≤ s.wall - o)

theorem instant?_eq_none_iff : s.instant? = none ↔ s.Outside := by
  unfold instant? Outside
  cases s.offset with
  | none => simp
  | some o =>
    have hcheck : Instant.check? (s.wall - o) = none ↔
        ¬ (0 ≤ s.wall - o ∧ s.wall - o < Instant.limit) := by
      unfold Instant.check?
      split <;> simp_all
    simp only [hcheck, Option.some.injEq, exists_eq_left', Int.not_le, Int.not_lt, not_and_or]

/-- Only on the first and the last day can an offset take a stamp that is read out of the calendar. -/
theorem edge_of_outside (hread : read? text = some s) (hs : s.Outside) :
    s.wall < Span.day ∨ Instant.limit - Span.day < s.wall := by
  obtain ⟨-, hoffset⟩ := bounds_of_read? hread
  obtain ⟨o, ho, hwall⟩ := hs
  obtain ⟨hwest, heast⟩ := hoffset o ho
  rcases hwall with hfirst | hlast
  · exact Or.inl (Int.lt_trans (Int.lt_of_sub_neg hfirst) heast)
  · refine Or.inr ?_
    have hless : s.wall - o < s.wall + Span.day := Int.add_lt_add_left (Int.neg_lt_of_neg_lt hwest) _
    exact Int.sub_right_lt_of_lt_add (Int.lt_of_le_of_lt hlast hless)

end Stamp

namespace Checkpoint

variable {r : Register} {key : String} {lookback : Double} {seen now back t : Instant}

/-! ## The floor -/

/-- A look back never goes ahead. -/
theorem floor_le (hlookback : Double.zero.le lookback = true) (h : floor lookback now = .ok back) :
    0 ≤ back ∧ back < Instant.limit ∧ back ≤ now := by
  cases hspan : Span.hours lookback with
  | error f =>
    have herror : floor lookback now = .error f := by
      unfold floor
      rw [hspan]
      rfl
    rw [herror] at h
    cases h
  | ok span =>
    have hfrom : floor lookback now = Span.from? now (-span) := by
      unfold floor
      rw [hspan]
      rfl
    rw [hfrom] at h
    unfold Span.from? at h
    split at h
    next back' hshift =>
      obtain rfl := Except.ok.inj h
      obtain ⟨hmoved, hpast, hlimit⟩ := Instant.check?_eq_some hshift
      refine ⟨hpast, hlimit, ?_⟩
      rw [← hmoved]
      exact Int.add_le_of_le_sub_left
        (by rw [Int.sub_self]; exact Int.neg_nonpos_of_nonneg (Span.hours_nonneg hlookback hspan))
    next => cases h

/-! ## What is read -/

theorem stored?_read {value : Option String} {s : Stamp} (h : stored? value = some s) :
    ∃ text, value = some text ∧ Stamp.read? (withOffset text) = some s := by
  obtain ⟨text, hvalue, hread⟩ := Option.bind_eq_some_iff.mp h
  split at hread
  next => cases hread
  next => exact ⟨text, hvalue, hread⟩

/-- A stamp is stored, and its offset takes it out of the calendar. -/
def Unconverted (r : Register) (key : String) : Prop :=
  r.access = .ok () ∧ ∃ s, stored? (valueOf r key) = some s ∧ s.Outside

/-- A time is stored that is past where the clock is seen. -/
def Usable (r : Register) (key : String) (seen t : Instant) : Prop :=
  r.access = .ok () ∧ held? r key = some t ∧ t ≤ seen

/-- What comes of reading a checkpoint, with the clock at `seen` when the stored time is looked at and
at `now` when the floor is taken. -/
structure Reads (r : Register) (key : String) (seen now back : Instant)
    (result : Except Failure Instant) : Prop where
  usable : ∀ t, Usable r key seen t → result = .ok t
  unconverted : ∀ f, result = .error f ↔ f = .timeOutOfRange ∧ Unconverted r key
  otherwise : (∀ t, ¬ Usable r key seen t) → ¬ Unconverted r key → result = .ok back
  past : ∀ t, result = .ok t → 0 ≤ t ∧ t < Instant.limit ∧ t ≤ now

theorem Usable.bounds (h : Usable r key seen t) : 0 ≤ t ∧ t < Instant.limit := by
  obtain ⟨s, hstored, hinstant⟩ := Option.bind_eq_some_iff.mp h.2.1
  obtain ⟨text, -, hread⟩ := stored?_read hstored
  obtain ⟨⟨hpast, hlimit⟩, -⟩ := Stamp.bounds_of_read? hread
  exact Stamp.instant?_bounds hpast hlimit hinstant

theorem Unconverted.edge (h : Unconverted r key) : ∃ s, stored? (valueOf r key) = some s ∧
    (s.wall < Span.day ∨ Instant.limit - Span.day < s.wall) := by
  obtain ⟨-, s, hstored, hs⟩ := h
  obtain ⟨text, -, hread⟩ := stored?_read hstored
  exact ⟨s, hstored, Stamp.edge_of_outside hread hs⟩

theorem getNoting_of_unconverted (h : Unconverted r key) :
    getNoting r key lookback seen now = .error .timeOutOfRange := by
  obtain ⟨haccess, s, hstored, hs⟩ := h
  simp only [getNoting, haccess, hstored, Stamp.instant?_eq_none_iff.mpr hs]

theorem getNoting_otherwise (husable : ∀ t, ¬ Usable r key seen t) (hconverted : ¬ Unconverted r key) :
    getNoting r key lookback seen now = floor lookback now := by
  unfold getNoting
  split
  next => rfl
  next haccess =>
    split
    next => rfl
    next s hstored =>
      split
      next hinstant =>
        exact absurd ⟨haccess, s, hstored, Stamp.instant?_eq_none_iff.mp hinstant⟩ hconverted
      next t hinstant =>
        have hheld : held? r key = some t := Option.bind_eq_some_iff.mpr ⟨s, hstored, hinstant⟩
        exact if_pos (Int.not_le.mp fun hseen => husable t ⟨haccess, hheld, hseen⟩)

/-- The three ways in which the reading of a checkpoint goes. -/
theorem getNoting_cases (r : Register) (key : String) (lookback : Double) (seen now : Instant) :
    (∃ t, Usable r key seen t ∧ getNoting r key lookback seen now = .ok t) ∨
      Unconverted r key ∧ getNoting r key lookback seen now = .error .timeOutOfRange ∨
      getNoting r key lookback seen now = floor lookback now := by
  by_cases hsome : ∃ t, Usable r key seen t
  · obtain ⟨t, ht⟩ := hsome
    exact Or.inl ⟨t, ht, getNoting_of_held ht.1 ht.2.1 ht.2.2⟩
  · by_cases hconverted : Unconverted r key
    · exact Or.inr (Or.inl ⟨hconverted, getNoting_of_unconverted hconverted⟩)
    · exact Or.inr (Or.inr (getNoting_otherwise (not_exists.mp hsome) hconverted))

theorem reads_getNoting (hlookback : Double.zero.le lookback = true)
    (hfloor : floor lookback now = .ok back) (hseen : seen ≤ now) :
    Reads r key seen now back (getNoting r key lookback seen now) := by
  have hcases := getNoting_cases r key lookback seen now
  rw [hfloor] at hcases
  refine ⟨fun t ht => getNoting_of_held ht.1 ht.2.1 ht.2.2, fun f => ⟨fun hf => ?_, ?_⟩,
    fun hnone hconverted => (getNoting_otherwise hnone hconverted).trans hfloor, fun t ht => ?_⟩
  · rw [hf] at hcases
    rcases hcases with ⟨t, -, ht⟩ | ⟨hconverted, hfails⟩ | hback
    · cases ht
    · exact ⟨Except.error.inj hfails, hconverted⟩
    · cases hback
  · rintro ⟨rfl, hconverted⟩
    exact getNoting_of_unconverted hconverted
  · rw [ht] at hcases
    rcases hcases with ⟨t', husable, ht'⟩ | ⟨-, hfails⟩ | hback
    · obtain rfl := Except.ok.inj ht'
      exact ⟨husable.bounds.1, husable.bounds.2, Int.le_trans husable.2.2 hseen⟩
    · cases hfails
    · obtain rfl := Except.ok.inj hback
      exact floor_le hlookback hfloor

/-- Whatever is stored and however the database fails, a checkpoint is read as the stored time where
that is past and as the floor otherwise, on a clock that stands still and on one that goes on between
the two looks at it. It fails for a stamp alone that its offset takes out of the calendar, which is one
of the first day or of the last; every time that is given is one of the calendar and not ahead of the
clock. -/
theorem reads_get (hlookback : Double.zero.le lookback = true)
    (hfloor : floor lookback now = .ok back) (r : Register) (key : String) :
    Reads r key now now back (get r key lookback now) ∧
      (∀ seen ≤ now, Reads r key seen now back (getNoting r key lookback seen now)) ∧
      (Unconverted r key → ∃ s, stored? (valueOf r key) = some s ∧
        (s.wall < Span.day ∨ Instant.limit - Span.day < s.wall)) := by
  refine ⟨?_, fun seen hseen => reads_getNoting hlookback hfloor hseen, Unconverted.edge⟩
  rw [← getNoting_self]
  exact reads_getNoting hlookback hfloor (Int.le_refl now)

/-- With a checkpoint that cannot be read the floor is taken, an hour before the clock. -/
theorem oldCheckpoint_reads_floor :
    Double.zero.le (Double.ofNat 1) = true ∧
      floor (Double.ofNat 1) (3 * Span.hour) = .ok (2 * Span.hour) ∧
      get oldCheckpoint "run" (Double.ofNat 1) (3 * Span.hour) = .ok (2 * Span.hour) := by
  have hlookback : Double.zero.le (Double.ofNat 1) = true := by decide +kernel
  have hfloor : floor (Double.ofNat 1) (3 * Span.hour) = .ok (2 * Span.hour) := by decide +kernel
  have hnone : stored? (valueOf oldCheckpoint "run") = none := by decide +kernel
  refine ⟨hlookback, hfloor, (reads_get hlookback hfloor oldCheckpoint "run").1.otherwise ?_ ?_⟩
  · rintro t ⟨-, hheld, -⟩
    rw [held?, hnone] at hheld
    cases hheld
  · rintro ⟨-, s, hstored, -⟩
    rw [hnone] at hstored
    cases hstored

/-- Settings with a checkpoint of the first midnight of the calendar, an hour ahead of UTC. -/
def firstMidnight : Register :=
  { Register.empty with
    settings := [⟨"run", some "0001-01-01T00:00:00+01:00", some settingType, true⟩] }

/-- It has no time in UTC, and the floor is not taken in its place. -/
theorem firstMidnight_not_read :
    floor (Double.ofNat 1) (3 * Span.hour) = .ok (2 * Span.hour) ∧
      get firstMidnight "run" (Double.ofNat 1) (3 * Span.hour) = .error .timeOutOfRange := by
  decide +kernel

end Checkpoint

end FaultDesk
