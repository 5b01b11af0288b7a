import FaultDesk.Proofs.Number.Figures
import FaultDesk.Proofs.Time.Days
import FaultDesk.Time.Iso

/-!
What can be read of a text as an ISO stamp. Its wall clock shows a time of the calendar and its offset
is less than a day, so that its instant lies outside the calendar on the first and the last day at most.
-/

namespace FaultDesk

/-! ## Days -/

namespace Calendar

variable {year month : Nat}

/-- The days up to the end of a month are days of its year. -/
theorem daysBeforeMonth_add_le (hmonth : 1 ≤ month) (hlast : month ≤ 12) :
    daysBeforeMonth year month + daysIn year month ≤ yearLength year := by
  rw [← daysBeforeMonth_succ hmonth, ← daysBeforeMonth_behind]
  have hmono (k m : Nat) : daysBeforeMonth year (m + 1) ≤ daysBeforeMonth year (m + k + 1) := by
    induction k with
    | zero => exact Nat.le_refl _
    | succ k ih =>
      refine Nat.le_trans ih ?_
      rw [← Nat.add_assoc, @daysBeforeMonth_succ year (m + k + 1) (by omega)]
      exact Nat.le_add_right _ _
  have hbehind := hmono (12 - month) month
  rwa [Nat.add_sub_cancel' hlast] at hbehind

theorem daysIn_of_unknown (h : month = 0 ∨ 12 < month) : daysIn year month = 0 := by
  unfold daysIn
  split <;> omega

/-- A date of the calendar is one of its days. -/
theorem number_lt_of_isDate {d : Date} (h : isDate d.year d.month d.day = true) :
    d.number < dayLimit := by
  simp only [isDate, Bool.and_eq_true, decide_eq_true_eq] at h
  obtain ⟨⟨⟨hyear, hlast⟩, hday⟩, hdays⟩ := h
  have hknown : ¬ (d.month = 0 ∨ 12 < d.month) := by
    intro hunknown
    rw [daysIn_of_unknown hunknown] at hdays
    omega
  have hrest := @daysBeforeMonth_add_le d.year d.month (by omega) (by omega)
  have hnext := daysBeforeYear_succ hyear
  have hlimit : daysBeforeYear (d.year + 1) ≤ dayLimit := daysBeforeYear_mono (by omega) (by omega)
  unfold Date.number
  omega

end Calendar

namespace Iso

variable {cs rest : List Char} {n v : Nat}

theorem weekDate_lt {year week day : Nat} (h : weekDate year week day = some n) :
    n < Calendar.dayLimit := by
  unfold weekDate at h
  split at h
  next => cases h
  next =>
    extract_lets first weekday long monday m at h
    split at h
    next =>
      split at h
      next hbounds =>
        obtain rfl := Option.some.inj h
        exact (Int.toNat_lt hbounds.1).mpr hbounds.2
      next => cases h
    next => cases h

/-- A date that is read is a day of the calendar. -/
theorem date_lt (h : date cs = some n) : n < Calendar.dayLimit := by
  unfold date at h
  obtain ⟨⟨year, rest⟩, -, h⟩ := Option.bind_eq_some_iff.mp h
  dsimp -zeta only at h
  extract_lets hyphens rest at h
  split at h
  next =>
    obtain ⟨⟨week, rest⟩, -, h⟩ := Option.bind_eq_some_iff.mp h
    dsimp only at h
    split at h
    next => exact weekDate_lt h
    next =>
      split at h
      next => cases h
      next =>
        obtain ⟨⟨day, rest⟩, -, h⟩ := Option.bind_eq_some_iff.mp h
        dsimp only at h
        split at h
        next => exact weekDate_lt h
        next => cases h
  next =>
    obtain ⟨⟨month, rest⟩, -, h⟩ := Option.bind_eq_some_iff.mp h
    dsimp only at h
    split at h
    next => cases h
    next =>
      obtain ⟨⟨day, rest⟩, -, h⟩ := Option.bind_eq_some_iff.mp h
      dsimp only at h
      split at h
      next hdate =>
        obtain rfl := Option.some.inj h
        exact Calendar.number_lt_of_isDate hdate.2
      next => cases h

/-! ## Clock times and offsets -/

theorem digits_lt (h : digits n cs = some (v, rest)) : v < 10 ^ n := by
  induction n generalizing cs v rest with
  | zero =>
    obtain ⟨rfl, -⟩ := Prod.mk.inj (Option.some.inj h)
    decide
  | succ n ih =>
    cases cs with
    | nil => cases h
    | cons c cs =>
      rw [digits] at h
      split at h
      next hdigit =>
        obtain ⟨⟨w, rest'⟩, hw, hv⟩ := Option.map_eq_some_iff.mp h
        obtain ⟨rfl, -⟩ := Prod.mk.inj hv
        have hfirst : c.toNat - 48 ≤ 9 := Nat.sub_le_of_le_add (toNat_of_isDigit hdigit).2
        have hrest := ih hw
        have hmul : (c.toNat - 48) * 10 ^ n ≤ 9 * 10 ^ n := Nat.mul_le_mul_right _ hfirst
        change (c.toNat - 48) * 10 ^ n + w < 10 ^ (n + 1)
        rw [Nat.pow_succ]
        omega
      next => cases h

theorem fraction_micros {parts : List Nat} {follow : Bool} {c : Clock}
    (h : fraction parts cs follow = some c) : c.micros < 1000000 := by
  obtain ⟨⟨w, rest⟩, hw, h⟩ := Option.bind_eq_some_iff.mp h
  obtain rfl := Option.some.inj h
  have hcount : min cs.length 6 ≤ 6 := Nat.min_le_right ..
  dsimp only
  calc w * Nat.pow 10 (6 - min cs.length 6)
      < 10 ^ min cs.length 6 * 10 ^ (6 - min cs.length 6) :=
        Nat.mul_lt_mul_of_pos_right (digits_lt hw) (Nat.pow_pos (by decide))
    _ = 10 ^ 6 := by rw [← Nat.pow_add, Nat.add_sub_cancel' hcount]

/-- A clock time has less than a second behind its parts. -/
theorem clockFrom_micros {follow : Bool} {left : Nat} {colons : Option Bool} {parts : List Nat}
    {c : Clock} (h : clockFrom follow left colons parts cs = some c) : c.micros < 1000000 := by
  induction left generalizing colons parts cs with
  | zero => exact fraction_micros h
  | succ left ih =>
    rw [clockFrom] at h
    obtain ⟨⟨w, rest⟩, -, h⟩ := Option.bind_eq_some_iff.mp h
    dsimp only at h
    split at h
    next =>
      obtain rfl := Option.some.inj h
      exact Nat.zero_lt_succ _
    next =>
      split at h
      next =>
        obtain rfl := Option.some.inj h
        exact Nat.zero_lt_succ _
      next =>
        split at h
        next => exact ih h
        next =>
          split at h
          next => exact fraction_micros h
          next =>
            split at h
            next => exact ih h
            next => cases h

theorem span?_lt {c : Clock} {m : Nat} (hmicros : c.micros < 1000000) (h : c.span? = some m) :
    (m : Int) < Span.day := by
  unfold Clock.span? Clock.seconds at h
  split at h
  next hparts =>
    obtain rfl := Option.some.inj h
    unfold Span.day
    omega
  next => cases h

theorem signed_lt {o bound : Int} (negative : Bool) (hpast : 0 ≤ o) (hbound : o < bound) :
    -bound < (if negative then -o else o) ∧ (if negative then -o else o) < bound := by
  cases negative <;> simp only [Bool.false_eq_true, ↓reduceIte] <;> omega

/-- An offset that is read is less than a day. -/
theorem offset_lt {negative : Bool} {o : Span} (h : offset negative cs = some o) :
    -Span.day < o ∧ o < Span.day := by
  obtain ⟨c, -, h⟩ := Option.bind_eq_some_iff.mp h
  split at h
  next => cases h
  next =>
    split at h
    next =>
      obtain rfl := Option.some.inj h
      exact ⟨by decide, by decide⟩
    next =>
      dsimp only at h
      split at h
      next hless =>
        obtain rfl := Option.some.inj h
        exact signed_lt negative (by omega) hless
      next => cases h

/-- A time that is read is one of a day. -/
theorem time_lt {m : Nat} {o : Option Span} (h : time cs = some (m, o)) :
    (m : Int) < Span.day ∧ ∀ x, o = some x → -Span.day < x ∧ x < Span.day := by
  obtain ⟨c, hclock, h⟩ := Option.bind_eq_some_iff.mp h
  have hmicros := clockFrom_micros hclock
  split at h
  next =>
    split at h
    next => cases h
    next =>
      obtain ⟨m', hm, h⟩ := Option.bind_eq_some_iff.mp h
      obtain ⟨rfl, rfl⟩ := Prod.mk.inj (Option.some.inj h)
      exact ⟨span?_lt hmicros hm, by simp⟩
  next =>
    split at h
    next =>
      obtain ⟨m', hm, h⟩ := Option.bind_eq_some_iff.mp h
      obtain ⟨rfl, rfl⟩ := Prod.mk.inj (Option.some.inj h)
      refine ⟨span?_lt hmicros hm, fun x hx => ?_⟩
      obtain rfl := Option.some.inj hx
      exact ⟨by decide, by decide⟩
    next => cases h
  next =>
    obtain ⟨x, hx, h⟩ := Option.bind_eq_some_iff.mp h
    obtain ⟨m', hm, h⟩ := Option.bind_eq_some_iff.mp h
    obtain ⟨rfl, rfl⟩ := Prod.mk.inj (Option.some.inj h)
    refine ⟨span?_lt hmicros hm, fun y hy => ?_⟩
    obtain rfl := Option.some.inj hy
    exact offset_lt hx

end Iso

namespace Stamp

variable {text : String} {s : Stamp} {t : Instant}

/-- A stamp that is read shows a time of the calendar, and its offset is less than a day. -/
theorem bounds_of_read? (h : read? text = some s) :
    (0 ≤ s.wall ∧ s.wall < Instant.limit) ∧
      ∀ o, s.offset = some o → -Span.day < o ∧ o < Span.day := by
  unfold read? at h
  dsimp only at h
  split at h
  next => cases h
  next =>
    obtain ⟨n, -, h⟩ := Option.bind_eq_some_iff.mp h
    obtain ⟨day, hday, h⟩ := Option.bind_eq_some_iff.mp h
    have hlast : (day : Int) + 1 ≤ Calendar.dayLimit := Int.ofNat_le.mpr (Iso.date_lt hday)
    have hend : ((day : Int) + 1) * Span.day ≤ Instant.limit :=
      Int.mul_le_mul_of_nonneg_right hlast (by decide)
    have hstart : 0 ≤ (day : Int) * Span.day := Int.mul_nonneg (Int.natCast_nonneg day) (by decide)
    rw [Int.add_mul, Int.one_mul] at hend
    split at h
    next =>
      obtain rfl := Option.some.inj h
      exact ⟨⟨hstart, Int.lt_of_lt_of_le (Int.lt_add_of_pos_right _ (by decide)) hend⟩, by simp⟩
    next =>
      obtain ⟨⟨m, o⟩, htime, h⟩ := Option.bind_eq_some_iff.mp h
      obtain rfl := Option.some.inj h
      obtain ⟨hm, ho⟩ := Iso.time_lt htime
      exact ⟨⟨by dsimp only; omega, by dsimp only; omega⟩, ho⟩

end Stamp

end FaultDesk
