import FaultDesk.Proofs.Number.Line
import FaultDesk.Proofs.Number.Rounding
import FaultDesk.Time.Span

/-!
Spans of hours are in the order of the numbers they are given as. The whole hours are exact and the rest
is rounded twice, but rounding never brings a greater count below a smaller one.
-/

namespace FaultDesk

namespace Double

/-- The steps of an hour of microseconds. -/
def hourSteps : Nat := 3600000000 * unit

theorem held_hourSteps : Held hourSteps := by decide +kernel

theorem ofNat_hour : ofNat 3600000000 = .finite false hourSteps held_hourSteps := by decide +kernel

/-- A count of hours in microseconds: the whole hours, and the nearest steps of the rest. -/
def hourMicros (steps : Nat) : Nat :=
  roundedQuotient (steps / unit * hourSteps + nearestSteps (steps % unit * hourSteps) unit) unit

/-- The rest of an hour is not longer than an hour. -/
theorem rest_le_hour (steps : Nat) : nearestSteps (steps % unit * hourSteps) unit ≤ hourSteps := by
  have hrest : steps % unit * hourSteps ≤ hourSteps * unit := by
    rw [Nat.mul_comm hourSteps]
    exact Nat.mul_le_mul_right _ (Nat.mod_lt _ unit_pos).le
  calc nearestSteps (steps % unit * hourSteps) unit
      ≤ nearestSteps (hourSteps * unit) unit := nearestSteps_mono unit_pos hrest
    _ = hourSteps := nearestSteps_mul unit_pos (Nat.dvd_of_mod_eq_zero held_hourSteps.1)

theorem hourMicros_mono {m n : Nat} (h : m ≤ n) : hourMicros m ≤ hourMicros n := by
  refine roundedQuotient_mono ?_
  have hquotient : m / unit ≤ n / unit := Nat.div_le_div_right h
  rcases Nat.lt_or_eq_of_le hquotient with hless | hsame
  · calc m / unit * hourSteps + nearestSteps (m % unit * hourSteps) unit
        ≤ m / unit * hourSteps + hourSteps := Nat.add_le_add_left (rest_le_hour m) _
      _ = (m / unit + 1) * hourSteps := (Nat.succ_mul _ _).symm
      _ ≤ n / unit * hourSteps := Nat.mul_le_mul_right _ hless
      _ ≤ n / unit * hourSteps + nearestSteps (n % unit * hourSteps) unit := Nat.le_add_right _ _
  · have hm := Nat.div_add_mod m unit
    have hn := Nat.div_add_mod n unit
    have hrest : m % unit ≤ n % unit := by
      rw [hsame] at hm
      omega
    rw [hsame]
    exact Nat.add_le_add_left (nearestSteps_mono unit_pos (Nat.mul_le_mul_right _ hrest)) _

/-- The part of an hour, in steps. -/
theorem signed_scale_hour {rest : Nat} {part : Int}
    (h : ((pack false rest).scale 3600000000).signed? = some part) :
    part = nearestSteps (rest * hourSteps) unit := by
  have hone : hourSteps ≠ 0 := by decide +kernel
  unfold scale at h
  rw [ofNat_hour] at h
  unfold pack at h
  split at h
  next hrest =>
    simp only [mul, ofSteps_eq, bne_self_eq_false] at h
    unfold pack at h
    split at h
    next => exact (Option.some.inj h).symm
    next => cases h
  next => simp [mul, hone, signed?] at h

end Double

namespace Span

open Double

theorem roundedQuotientInt_natCast (n den : Nat) :
    roundedQuotientInt (n : Int) den = roundedQuotient n den := rfl

theorem natCast_steps (whole size unit rest : Nat) :
    (whole : Int) * size * unit + rest = (whole * (size * unit) + rest : Nat) := by
  push_cast
  ring

theorem ofDouble_parts {d : Double} {size : Nat} {span : Span} {whole : Int} {f : Double}
    (hwhole : d.whole? = some whole) (hfraction : d.fraction? = some f)
    (h : ofDouble d size = .ok span) : ∃ part, (f.scale size).signed? = some part ∧
      span = roundedQuotientInt (whole * size * unit + part) unit := by
  unfold ofDouble at h
  rw [hwhole, hfraction] at h
  dsimp only at h
  split at h
  next part hpart =>
    refine ⟨part, hpart, ?_⟩
    unfold checked check? at h
    split at h
    next hfits =>
      split at hfits
      next => exact (Except.ok.inj h).symm.trans (Option.some.inj hfits).symm
      next => cases hfits
    next => cases h
  next => cases h

/-- What hours come to in microseconds, where they fit. -/
theorem of_hours {steps : Nat} {held : Held steps} {span : Span}
    (h : hours (.finite false steps held) = .ok span) : span = hourMicros steps := by
  have hwhole : (finite false steps held).whole? = some ((steps / unit : Nat) : Int) := rfl
  obtain ⟨part, hpart, hspan⟩ := ofDouble_parts hwhole rfl h
  rw [hspan, signed_scale_hour hpart, natCast_steps, roundedQuotientInt_natCast, ← hourSteps,
    ← hourMicros]

/-- Positive hours that fit are a count of steps. -/
theorem finite_of_hours {d : Double} {span : Span} (hpos : Double.zero.lt d = true)
    (h : hours d = .ok span) :
    ∃ steps held, d = .finite false steps held ∧ span = hourMicros steps := by
  cases d with
  | nan => cases hpos
  | infinite negative => cases h
  | finite negative steps held =>
    cases negative with
    | false => exact ⟨steps, held, rfl, of_hours h⟩
    | true =>
      have hbelow := (lt_iff rfl rfl).mp hpos
      dsimp only at hbelow
      simp only [↓reduceIte] at hbelow
      omega

theorem hours_negative_zero : hours (.finite true 0 held_zero) = .ok 0 := by decide +kernel

/-- Hours that are not negative are a span that is not. -/
theorem hours_nonneg {d : Double} {span : Span} (hd : Double.zero.le d = true)
    (h : hours d = .ok span) : 0 ≤ span := by
  cases d with
  | nan => cases hd
  | infinite negative => cases h
  | finite negative steps held =>
    cases negative with
    | false =>
      rw [of_hours h]
      exact Int.natCast_nonneg _
    | true =>
      have hbelow := (le_iff rfl rfl).mp hd
      dsimp only at hbelow
      simp only [↓reduceIte] at hbelow
      obtain rfl : steps = 0 := by omega
      rw [hours_negative_zero] at h
      exact (Except.ok.inj h).le

/-- Of two positive times in hours the one that is not below the other is not the shorter span. -/
theorem hours_mono {a b : Double} {x y : Span} (ha : Double.zero.lt a = true)
    (hb : Double.zero.lt b = true) (hle : b.lt a = false) (hx : hours a = .ok x)
    (hy : hours b = .ok y) : x ≤ y := by
  obtain ⟨m, hm, rfl, rfl⟩ := finite_of_hours ha hx
  obtain ⟨n, hn, rfl, rfl⟩ := finite_of_hours hb hy
  have hplace {k : Nat} (hk : Held k) : (finite false k hk).place? = some (0, (k : Int)) := rfl
  have hmn : m ≤ n := by
    by_contra hless
    have hbelow : (n : Int) < m := by omega
    have hlt := (lt_iff (hplace hn) (hplace hm)).mpr (Or.inr ⟨rfl, hbelow⟩)
    rw [hle] at hlt
    cases hlt
  exact Int.ofNat_le.mpr (hourMicros_mono hmn)

end Span

end FaultDesk
