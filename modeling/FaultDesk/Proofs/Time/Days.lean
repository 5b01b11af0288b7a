import FaultDesk.Time.Calendar

/-!
Dates and the numbers of days before them. Every day of years 1 to 9999 is that of one date of the
calendar.
-/

namespace FaultDesk

namespace Calendar

variable {year month fuel n rest : Nat}

/-! ## Years -/

def yearLength (year : Nat) : Nat := if isLeap year then 366 else 365

theorem isLeap_iff : isLeap year = true ↔ year % 4 = 0 ∧ (year % 100 = 0 → year % 400 = 0) := by
  simp only [isLeap, Bool.and_eq_true, beq_iff_eq, Bool.or_eq_true, bne_iff_ne, ne_eq]
  omega

theorem daysBeforeYear_succ (hyear : 1 ≤ year) :
    daysBeforeYear (year + 1) = daysBeforeYear year + yearLength year := by
  obtain ⟨y, rfl⟩ : ∃ y, year = y + 1 := ⟨year - 1, by omega⟩
  have h4 : (y + 1) / 4 = y / 4 + if (y + 1) % 4 = 0 then 1 else 0 := by split <;> omega
  have h100 : (y + 1) / 100 = y / 100 + if (y + 1) % 100 = 0 then 1 else 0 := by
    split <;> omega
  have h400 : (y + 1) / 400 = y / 400 + if (y + 1) % 400 = 0 then 1 else 0 := by
    split <;> omega
  have hle : y / 100 ≤ y / 4 := by omega
  have hless : (y + 1) % 100 = 0 → (y + 1) % 4 = 0 := by omega
  have hleast : (y + 1) % 400 = 0 → (y + 1) % 100 = 0 := by omega
  unfold daysBeforeYear yearLength
  simp only [Nat.add_sub_cancel, h4, h100, h400, isLeap_iff]
  generalize y / 4 = a at hle ⊢
  generalize y / 100 = b at hle ⊢
  generalize y / 400 = c
  -- a leap year is one more among the fourth years, and the hundredth ones take and give back
  by_cases hfour : (y + 1) % 4 = 0
  · by_cases hhundred : (y + 1) % 100 = 0
    · by_cases hcycle : (y + 1) % 400 = 0
      · simp only [hfour, hhundred, hcycle, if_true, true_and, implies_true]
        omega
      · simp only [hfour, hhundred, hcycle, if_true, if_false, true_and, true_implies]
        omega
    · have hcycle : (y + 1) % 400 ≠ 0 := fun h => hhundred (hleast h)
      simp only [hfour, hhundred, hcycle, if_true, if_false, true_and, false_implies]
      omega
  · have hhundred : (y + 1) % 100 ≠ 0 := fun h => hfour (hless h)
    have hcycle : (y + 1) % 400 ≠ 0 := fun h => hhundred (hleast h)
    simp only [hfour, hhundred, hcycle, if_false, false_and]
    omega

theorem daysBeforeYear_mono {year' : Nat} (hyear : 1 ≤ year) (hle : year ≤ year') :
    daysBeforeYear year ≤ daysBeforeYear year' := by
  induction hle with
  | refl => exact Nat.le_refl _
  | step hle ih =>
    rw [daysBeforeYear_succ (Nat.le_trans hyear hle)]
    exact Nat.le_trans ih (Nat.le_add_right _ _)

/-- The days before a year that stands so far in its cycles of 400, 100 and 4 years. -/
theorem daysBeforeYear_cycles {a b c d : Nat} (hb : b ≤ 3) (hc : c ≤ 24) (hd : d ≤ 3)
    (hyear : year = a * 400 + b * 100 + c * 4 + d + 1) :
    daysBeforeYear year = a * 146097 + b * 36524 + c * 1461 + d * 365 := by
  have h4 : (a * 400 + b * 100 + c * 4 + d) / 4 = a * 100 + b * 25 + c := by omega
  have h100 : (a * 400 + b * 100 + c * 4 + d) / 100 = a * 4 + b := by omega
  have h400 : (a * 400 + b * 100 + c * 4 + d) / 400 = a := by omega
  simp only [hyear, daysBeforeYear, Nat.add_sub_cancel, h4, h100, h400]
  omega

/-- A day in its cycles, which give its year. -/
theorem yearOf_eq (n : Nat) : ∃ a b c d e, n = a * 146097 + b * 36524 + c * 1461 + d * 365 + e ∧
    b * 36524 + c * 1461 + d * 365 + e < 146097 ∧ c * 1461 + d * 365 + e < 36524 ∧
    d * 365 + e < 1461 ∧ e < 365 ∧
    yearOf n = if b = 4 ∨ d = 4 then a * 400 + b * 100 + c * 4 + d
      else a * 400 + b * 100 + c * 4 + d + 1 := by
  refine ⟨n / 146097, n % 146097 / 36524, n % 146097 % 36524 / 1461,
    n % 146097 % 36524 % 1461 / 365, n % 146097 % 36524 % 1461 % 365, ?_, ?_, ?_, ?_, ?_, rfl⟩
  all_goals omega

/-- The year that holds a day. -/
theorem yearOf_spec (n : Nat) : 1 ≤ yearOf n ∧ daysBeforeYear (yearOf n) ≤ n ∧
    n < daysBeforeYear (yearOf n + 1) := by
  obtain ⟨a, b, c, d, e, hn, hb, hc, hd, he, hy⟩ := yearOf_eq n
  generalize yearOf n = y at hy ⊢
  by_cases hlast : b = 4
  · -- the last day of 400 years
    obtain ⟨rfl, rfl, rfl⟩ : c = 0 ∧ d = 0 ∧ e = 0 := by subst hlast; omega
    have hy' : y = a * 400 + 400 := by rw [hy, if_pos (Or.inl hlast), hlast]
    have hyear := @daysBeforeYear_cycles y a 3 24 3 (by omega) (by omega) (by omega) hy'
    have hnext := @daysBeforeYear_cycles (y + 1) (a + 1) 0 0 0 (by omega) (by omega) (by omega)
      (by rw [hy', Nat.add_mul])
    omega
  · by_cases hlast' : d = 4
    · -- the last day of 4 years
      obtain rfl : e = 0 := by subst hlast'; omega
      have hy' : y = a * 400 + b * 100 + c * 4 + 4 := by rw [hy, if_pos (Or.inr hlast'), hlast']
      have hyear := @daysBeforeYear_cycles y a b c 3 (by omega) (by omega) (by omega) hy'
      have hnext := @daysBeforeYear_cycles (y + 1) a b (c + 1) 0 (by omega) (by omega) (by omega)
        (by rw [hy', Nat.add_mul, ← Nat.add_assoc])
      omega
    · rw [if_neg (by omega)] at hy
      have hyear := daysBeforeYear_cycles (by omega) (by omega) (by omega) hy
      have hnext := @daysBeforeYear_succ y (by omega)
      have hlength : 365 ≤ yearLength y := by
        unfold yearLength
        split <;> omega
      omega

/-! ## Months -/

theorem daysBeforeMonth_succ (hmonth : 1 ≤ month) :
    daysBeforeMonth year (month + 1) = daysBeforeMonth year month + daysIn year month := by
  cases month with
  | zero => omega
  | succ month => rfl

theorem daysBeforeMonth_behind (year : Nat) : daysBeforeMonth year 13 = yearLength year := by
  simp only [daysBeforeMonth, daysIn, yearLength]
  split <;> rfl

/-- The search for the month ends in the year with a day of the month. -/
theorem monthFrom_spec (hmonth : 1 ≤ month) (hfuel : month + fuel = 13)
    (hrest : daysBeforeMonth year month + rest < yearLength year) :
    (monthFrom year fuel month rest).1 ≤ 12 ∧ 1 ≤ (monthFrom year fuel month rest).2 ∧
      (monthFrom year fuel month rest).2 ≤ daysIn year (monthFrom year fuel month rest).1 ∧
      daysBeforeMonth year (monthFrom year fuel month rest).1 +
        ((monthFrom year fuel month rest).2 - 1) = daysBeforeMonth year month + rest := by
  induction fuel generalizing month rest with
  | zero =>
    have hbehind := daysBeforeMonth_behind year
    obtain rfl : month = 13 := by omega
    omega
  | succ fuel ih =>
    unfold monthFrom
    split
    next hlt => exact ⟨by dsimp only; omega, by dsimp only; omega, hlt, rfl⟩
    next hge =>
      have hnext := @daysBeforeMonth_succ year month hmonth
      have hspec := @ih (month + 1) (rest - daysIn year month) (by omega) (by omega) (by omega)
      rw [hnext] at hspec
      obtain ⟨hle, hday, hdays, hnumber⟩ := hspec
      exact ⟨hle, hday, hdays, by rw [hnumber]; omega⟩

theorem daysIn_le (year month : Nat) : daysIn year month ≤ 31 := by
  unfold daysIn
  split <;> first | omega | (split <;> omega)

end Calendar

namespace Date

open Calendar

/-- The date of a day is a date of the calendar with so many days before it. -/
theorem ofNumber_spec {n : Nat} (h : n < dayLimit) :
    isDate (ofNumber n).year (ofNumber n).month (ofNumber n).day = true ∧
      (ofNumber n).month ≤ 12 ∧ number (ofNumber n) = n := by
  obtain ⟨hyear, hle, hlt⟩ := yearOf_spec n
  have hlast : yearOf n ≤ 9999 := by
    refine Nat.le_of_not_lt fun hgt => ?_
    have hmono := daysBeforeYear_mono (show 1 ≤ 10000 by decide) hgt
    unfold dayLimit at h
    omega
  rw [daysBeforeYear_succ hyear] at hlt
  have hrest : daysBeforeMonth (yearOf n) 1 + (n - daysBeforeYear (yearOf n)) <
      yearLength (yearOf n) := by
    simp only [daysBeforeMonth]
    omega
  obtain ⟨hmonth, hday, hdays, hnumber⟩ := @monthFrom_spec (yearOf n) 1 12 _ (by omega) (by omega) hrest
  refine ⟨?_, hmonth, ?_⟩
  · simp only [isDate, ofNumber, Bool.and_eq_true]
    exact ⟨⟨⟨decide_eq_true hyear, decide_eq_true hlast⟩, decide_eq_true hday⟩,
      decide_eq_true hdays⟩
  · simp only [number, ofNumber]
    rw [Nat.add_assoc, hnumber]
    simp only [daysBeforeMonth]
    omega

end Date

end FaultDesk
