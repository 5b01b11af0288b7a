import FaultDesk.Number.Shortest
import FaultDesk.Proofs.Number.Figures
import FaultDesk.Proofs.Number.Overflow

/-!
The numbers that are rounded to a given one. They reach half of the way to its neighbours; the middle
belongs to them when the last of the bits that are kept is zero. Below a power of two the neighbours are
twice as close.
-/

namespace FaultDesk

/-- A quotient is rounded to a whole number no more than a half away; at a half, to an even one. -/
theorem roundedQuotient_eq {num den q : Nat} (hden : 0 < den)
    (hlow : 2 * (q * den) ≤ 2 * num + den) (hhigh : 2 * num ≤ 2 * (q * den) + den)
    (hodd : q % 2 = 1 → 2 * (q * den) < 2 * num + den ∧ 2 * num < 2 * (q * den) + den) :
    roundedQuotient num den = q := by
  have hnum := Nat.div_add_mod num den
  have hrest := Nat.mod_lt num hden
  rw [Nat.mul_comm] at hnum
  unfold roundedQuotient
  dsimp only
  rcases lt_trichotomy q (num / den) with hless | rfl | hmore
  · have hbelow : (q + 1) * den ≤ num / den * den := Nat.mul_le_mul_right den hless
    rw [Nat.add_mul, Nat.one_mul] at hbelow
    omega
  · split
    next => rfl
    next =>
      split
      next => omega
      next => omega
  · have habove : (num / den + 1) * den ≤ q * den := Nat.mul_le_mul_right den hmore
    rw [Nat.add_mul, Nat.one_mul] at habove
    have hq : q = num / den + 1 := by
      by_contra hne
      have hfar : (num / den + 1 + 1) * den ≤ q * den :=
        Nat.mul_le_mul_right den (by omega)
      rw [Nat.add_mul, Nat.add_mul, Nat.one_mul] at hfar
      omega
    subst hq
    rw [Nat.add_mul, Nat.one_mul] at hlow hhigh hodd
    split
    next => omega
    next =>
      split
      next => rfl
      next => omega

/-- The rounded quotient is no more than a half away. -/
theorem roundedQuotient_near {num den : Nat} (hden : 0 < den) :
    2 * (roundedQuotient num den * den) ≤ 2 * num + den ∧
      2 * num ≤ 2 * (roundedQuotient num den * den) + den := by
  have hnum := Nat.div_add_mod num den
  have hrest := Nat.mod_lt num hden
  rw [Nat.mul_comm] at hnum
  unfold roundedQuotient
  dsimp only
  split
  next => omega
  next =>
    split
    next =>
      rw [Nat.add_mul, Nat.one_mul]
      omega
    next =>
      rcases Nat.mod_two_eq_zero_or_one (num / den) with heven | hodd
      · rw [heven, Nat.add_zero]
        omega
      · rw [hodd, Nat.add_mul, Nat.one_mul]
        omega

namespace Double

/-- The distance to the neighbour below. -/
def gapBelow (steps : Nat) : Nat :=
  if steps = 2 ^ steps.log2 ∧ 1 < gap steps then gap steps / 2 else gap steps

/-- The numbers of steps `num / den` that are rounded to `steps`. -/
structure Near (steps num den : Nat) : Prop where
  low : 2 * (steps * den) ≤ 2 * num + gapBelow steps * den
  high : 2 * num ≤ 2 * (steps * den) + gap steps * den
  odd : steps / gap steps % 2 = 1 → 2 * (steps * den) < 2 * num + gapBelow steps * den ∧
    2 * num < 2 * (steps * den) + gap steps * den

variable {steps num den : Nat}

theorem gap_le (hheld : Held steps) (hpos : 0 < steps) : gap steps ≤ steps :=
  Nat.le_of_dvd hpos (Nat.dvd_of_mod_eq_zero hheld.1)

theorem gapBelow_le : gapBelow steps ≤ gap steps := by
  unfold gapBelow
  split <;> omega

theorem even_gap (h : 1 < gap steps) : gap steps % 2 = 0 := by
  unfold gap at h ⊢
  rw [Nat.pow_eq] at h ⊢
  cases hbits : steps.log2 + 1 - 53 with
  | zero => simp [hbits] at h
  | succ k => rw [Nat.pow_succ, Nat.mul_mod_left]

theorem gap_le_twice_gapBelow : gap steps ≤ 2 * gapBelow steps := by
  unfold gapBelow
  split
  next h =>
    have heven := even_gap h.2
    omega
  next => omega

theorem gapBelow_pos : 0 < gapBelow steps := by
  have hgap := gap_pos steps
  have htwice := @gap_le_twice_gapBelow steps
  omega

theorem gapBelow_of_inside {k : Nat} (hinside : 2 ^ (52 + k) < steps) (hmost : steps < 2 ^ (53 + k)) :
    gapBelow steps = gap steps := by
  refine if_neg fun hpower => ?_
  rw [log2_of_bits hinside.le hmost] at hpower
  omega

theorem gapBelow_of_power {j : Nat} (hsteps : steps = 2 ^ (53 + j)) : gapBelow steps = 2 ^ j := by
  have hpos : 0 < 2 ^ j := Nat.two_pow_pos j
  have hhalf : 2 ^ (j + 1) = 2 * 2 ^ j := Nat.pow_succ'
  have hleast : 2 ^ (52 + (j + 1)) ≤ steps := by
    rw [hsteps, show 52 + (j + 1) = 53 + j by omega]
  have hmost : steps < 2 ^ (53 + (j + 1)) := by
    rw [hsteps]
    exact Nat.pow_lt_pow_right (by decide) (by omega)
  unfold gapBelow
  rw [log2_of_bits hleast hmost, gap_of_bits hleast hmost, show 52 + (j + 1) = 53 + j by omega,
    if_pos ⟨hsteps, by omega⟩]
  omega

theorem add_le_of_dvd {g a b : Nat} (ha : g ∣ a) (hb : g ∣ b) (h : a < b) : a + g ≤ b := by
  obtain ⟨c, rfl⟩ := ha
  obtain ⟨d, rfl⟩ := hb
  have hcd : c + 1 ≤ d := Nat.lt_of_mul_lt_mul_left h
  simpa [Nat.mul_add] using Nat.mul_le_mul_left g hcd

/-- A number near a held one is rounded to it when as many bits are left out of both. -/
theorem rounded_of_same_gap (hheld : Held steps) (hden : 0 < den) (h : Near steps num den)
    (hgap : gap (num / den) = gap steps)
    (hside : steps * den ≤ num ∨ gapBelow steps = gap steps) :
    roundedQuotient num (den * gap (num / den)) * gap (num / den) = steps := by
  obtain ⟨hlow, hhigh, hodd⟩ := h
  have hsteps : steps / gap steps * gap steps = steps :=
    Nat.div_mul_cancel (Nat.dvd_of_mod_eq_zero hheld.1)
  have hscaled : steps / gap steps * (den * gap steps) = steps * den := by
    rw [Nat.mul_comm den, ← Nat.mul_assoc, hsteps]
  have hpos : 0 < den * gap steps := Nat.mul_pos hden (gap_pos steps)
  have hcomm : den * gap steps = gap steps * den := Nat.mul_comm ..
  rw [hgap]
  rw [roundedQuotient_eq hpos (q := steps / gap steps), hsteps]
  · rw [hscaled]
    rcases hside with hside | hside
    · omega
    · rw [hside] at hlow
      omega
  · omega
  · intro hq
    have hstrict := hodd hq
    rw [hscaled]
    rcases hside with hside | hside
    · omega
    · rw [hside] at hstrict
      omega

/-- Below a power of two one bit more is kept, and the power is near to what lies close enough. -/
theorem rounded_of_power {j : Nat} (hsteps : steps = 2 ^ (53 + j)) (hden : 0 < den)
    (hlow : 2 * (steps * den) ≤ 2 * num + 2 ^ j * den) (hunder : num < steps * den) :
    roundedQuotient num (den * gap (num / den)) * gap (num / den) = steps := by
  have hpos : 0 < 2 ^ j := Nat.two_pow_pos j
  have hpower : 2 ^ (53 + j) = 2 * 2 ^ (52 + j) := by
    rw [← Nat.pow_succ']
    congr 1
    omega
  have hsmall : 2 ^ j ≤ 2 ^ (52 + j) := Nat.pow_le_pow_right (by decide) (by omega)
  have hfloor : 2 ^ (52 + j) ≤ num / den := by
    have hspare : 2 * (2 ^ (52 + j) * den) ≤ 2 * num := by
      have := Nat.mul_le_mul_right den hsmall
      rw [hsteps, hpower, Nat.mul_assoc] at hlow
      omega
    exact (Nat.le_div_iff_mul_le hden).mpr (by omega)
  have hceiling : num / den < 2 ^ (53 + j) := by
    rw [Nat.div_lt_iff_lt_mul hden, ← hsteps]
    exact hunder
  have hscaled : 2 ^ 53 * (den * 2 ^ j) = steps * den := by
    rw [hsteps, Nat.pow_add, Nat.mul_comm den, Nat.mul_assoc]
  have hcomm : den * 2 ^ j = 2 ^ j * den := Nat.mul_comm ..
  rw [gap_of_bits hfloor hceiling]
  rw [roundedQuotient_eq (Nat.mul_pos hden hpos) (q := 2 ^ 53), ← Nat.pow_add, hsteps]
  · rw [hscaled]
    omega
  · rw [hscaled]
    omega
  · exact fun hodd => absurd hodd (by decide)

/-- A number near a held one is rounded to it. -/
theorem rounded_of_near (hheld : Held steps) (hden : 0 < den) (h : Near steps num den) :
    roundedQuotient num (den * gap (num / den)) * gap (num / den) = steps := by
  have hquotient : num / den < steps + gap steps := by
    have hgap := Nat.mul_pos (gap_pos steps) hden
    have hhigh := h.high
    rw [Nat.div_lt_iff_lt_mul hden, Nat.add_mul]
    omega
  rcases Nat.lt_or_ge steps (2 ^ 53) with hfew | hmany
  · -- no bits are left out
    have hgap : gap steps = 1 := (rounded_of_few hfew).1
    have hgap' : gap (num / den) = gap steps := by
      rw [hgap]
      exact (rounded_of_few (by omega)).1
    exact rounded_of_same_gap hheld hden h hgap' (Or.inr (by simp [gapBelow, hgap]))
  · obtain ⟨k, hleast, hmost⟩ := exists_bits hmany
    have hgap : gap steps = 2 ^ k := gap_of_bits hleast hmost
    have hdvd : 2 ^ k ∣ steps := hgap ▸ Nat.dvd_of_mod_eq_zero hheld.1
    have hroom : steps + 2 ^ k ≤ 2 ^ (53 + k) :=
      add_le_of_dvd hdvd (Nat.pow_dvd_pow 2 (by omega)) hmost
    have hsame : 2 ^ (52 + k) ≤ num / den → gap (num / den) = gap steps := by
      intro hfloor
      rw [hgap] at hquotient ⊢
      exact gap_of_bits hfloor (by omega)
    rcases Nat.lt_or_ge num (steps * den) with hunder | hover
    · rcases Nat.lt_or_ge (2 ^ (52 + k)) steps with hinside | hpower
      · -- one gap lower there are still as many bits
        have hbelow : gapBelow steps = gap steps := gapBelow_of_inside hinside hmost
        have hlow := h.low
        rw [hbelow, hgap] at hlow
        have hspare : 2 ^ (52 + k) + 2 ^ k ≤ steps :=
          add_le_of_dvd (Nat.pow_dvd_pow 2 (by omega)) hdvd hinside
        have hfloor : 2 ^ (52 + k) ≤ num / den := by
          have := Nat.mul_le_mul_right den hspare
          rw [Nat.add_mul] at this
          exact (Nat.le_div_iff_mul_le hden).mpr (by omega)
        exact rounded_of_same_gap hheld hden h (hsame hfloor) (Or.inr hbelow)
      · obtain ⟨j, rfl⟩ : ∃ j, k = j + 1 := by
          cases k with
          | zero => omega
          | succ j => exact ⟨j, rfl⟩
        have hsteps : steps = 2 ^ (53 + j) := by
          rw [show 53 + j = 52 + (j + 1) by omega]
          omega
        have hlow := h.low
        rw [gapBelow_of_power hsteps] at hlow
        exact rounded_of_power hsteps hden hlow hunder
    · have hfloor : steps ≤ num / den := (Nat.le_div_iff_mul_le hden).mpr hover
      exact rounded_of_same_gap hheld hden h (hsame (by omega)) (Or.inl hover)

theorem pack_of_held (negative : Bool) (hheld : Held steps) :
    pack negative steps = .finite negative steps hheld :=
  dif_pos hheld

theorem ofSteps_of_near (negative : Bool) (hheld : Held steps) (hden : 0 < den)
    (h : Near steps num den) : ofSteps negative num den = .finite negative steps hheld := by
  unfold ofSteps
  dsimp only
  rw [rounded_of_near hheld hden h, pack_of_held]

/-! ## Decimal numbers -/

variable {digits : Nat} {e : Int}

/-- The power of ten that a number is multiplied with. -/
theorem raised_eq (n : Nat) (e : Int) :
    (if e < 0 then n else n * Nat.pow 10 e.natAbs) = n * 10 ^ e.toNat := by
  split
  next h => rw [show e.toNat = 0 by omega, Nat.pow_zero, Nat.mul_one]
  next h =>
    rw [show e.toNat = e.natAbs by omega]
    rfl

/-- The power of ten that it is divided by. -/
theorem lowered_eq (n : Nat) (e : Int) :
    (if e < 0 then n * Nat.pow 10 e.natAbs else n) = n * 10 ^ (-e).toNat := by
  split
  next h =>
    rw [show (-e).toNat = e.natAbs by omega]
    rfl
  next h => rw [show (-e).toNat = 0 by omega, Nat.pow_zero, Nat.mul_one]

theorem lowered_one (e : Int) : (if e < 0 then Nat.pow 10 e.natAbs else 1) = 10 ^ (-e).toNat := by
  simpa using lowered_eq 1 e

/-- A positive decimal number near a held count of steps. -/
def NearDecimal (steps digits : Nat) (e : Int) : Prop :=
  Near steps (digits * 10 ^ e.toNat * unit) (10 ^ (-e).toNat)

theorem readBack_eq (steps : Nat) : readBack steps =
    (4 * steps - 2 * gapBelow steps, 4 * steps + 2 * gap steps, steps / gap steps % 2 == 0) :=
  rfl

theorem readsBack_iff (hheld : Held steps) (hpos : 0 < steps) :
    readsBack steps digits e = true ↔ NearDecimal steps digits e := by
  have hbelow : gapBelow steps ≤ steps := gapBelow_le.trans (gap_le hheld hpos)
  unfold readsBack NearDecimal
  rw [readBack_eq, raised_eq, lowered_one]
  dsimp only
  generalize 10 ^ (-e).toNat = den
  rw [show 4 * unit * (digits * 10 ^ e.toNat) = 4 * (digits * 10 ^ e.toNat * unit) by ring]
  generalize digits * 10 ^ e.toNat * unit = num
  have hlow : (4 * steps - 2 * gapBelow steps) * den =
      4 * (steps * den) - 2 * (gapBelow steps * den) := by
    rw [Nat.sub_mul, Nat.mul_assoc, Nat.mul_assoc]
  have hhigh : (4 * steps + 2 * gap steps) * den = 4 * (steps * den) + 2 * (gap steps * den) := by
    ring
  have hroom : gapBelow steps * den ≤ steps * den := Nat.mul_le_mul_right den hbelow
  rw [hlow, hhigh]
  split
  next heven =>
    have heven' : steps / gap steps % 2 = 0 := by simpa using heven
    rw [Bool.and_eq_true, decide_eq_true_iff, decide_eq_true_iff]
    constructor
    · rintro ⟨hl, hh⟩
      exact ⟨by omega, by omega, by omega⟩
    · rintro ⟨hl, hh, -⟩
      omega
  next heven =>
    have hodd : steps / gap steps % 2 = 1 := by simpa using heven
    rw [Bool.and_eq_true, decide_eq_true_iff, decide_eq_true_iff]
    constructor
    · rintro ⟨hl, hh⟩
      exact ⟨by omega, by omega, fun _ => by omega⟩
    · rintro ⟨hl, hh, hstrict⟩
      have := hstrict hodd
      omega

/-- The cases far from all finite numbers apart, a decimal number is rounded as the quotient that it
is. -/
theorem ofDecimal_eq (negative : Bool) (hdigits : digits ≠ 0)
    (hleast : -400 ≤ (Nat.toDigits 10 digits).length + e)
    (hmost : (Nat.toDigits 10 digits).length + e ≤ 400) :
    ofDecimal negative digits e =
      ofSteps negative (digits * 10 ^ e.toNat * unit) (10 ^ (-e).toNat) := by
  unfold ofDecimal
  dsimp only
  rw [if_neg hdigits, if_neg (by omega), if_neg (by omega), ← raised_eq, ← lowered_one]
  split
  next => rfl
  next => rfl

theorem limit_far : 2 * limit ≤ 10 ^ 400 * unit := by decide +kernel

theorem unit_far : 2 * unit < 10 ^ 401 := by decide +kernel

/-- A decimal number of half a step or more does not lead far behind the point. -/
theorem lead_ge (h : 10 ^ (-e).toNat ≤ 2 * (digits * 10 ^ e.toNat * unit)) :
    -400 ≤ (Nat.toDigits 10 digits).length + e := by
  by_contra hfar
  have hsmall : digits * 10 ^ e.toNat * 10 ^ 401 ≤ 10 ^ (-e).toNat :=
    calc digits * 10 ^ e.toNat * 10 ^ 401
      _ ≤ 10 ^ (Nat.toDigits 10 digits).length * 10 ^ e.toNat * 10 ^ 401 :=
        Nat.mul_le_mul_right _ (Nat.mul_le_mul_right _ (lt_pow_length_toDigits digits).le)
      _ = 10 ^ ((Nat.toDigits 10 digits).length + e.toNat + 401) := by rw [Nat.pow_add, Nat.pow_add]
      _ ≤ 10 ^ (-e).toNat := Nat.pow_le_pow_right (by decide) (by omega)
  have hden : 0 < 10 ^ (-e).toNat := Nat.pow_pos (by decide)
  have hunit := unit_far
  generalize 10 ^ 401 = c at hsmall hunit
  generalize digits * 10 ^ e.toNat = num at hsmall h
  generalize 10 ^ (-e).toNat = den at hsmall h hden
  have hcontra : den * c ≤ den * (2 * unit) :=
    calc den * c
      _ ≤ 2 * (num * unit) * c := Nat.mul_le_mul_right c h
      _ = num * c * (2 * unit) := by ring
      _ ≤ den * (2 * unit) := Nat.mul_le_mul_right _ hsmall
  exact absurd (Nat.le_of_mul_le_mul_left hcontra hden) (Nat.not_le.mpr hunit)

/-- One below twice the limit does not lead far before it. -/
theorem lead_le (hdigits : digits ≠ 0)
    (h : digits * 10 ^ e.toNat * unit < 2 * (limit * 10 ^ (-e).toNat)) :
    (Nat.toDigits 10 digits).length + e ≤ 400 := by
  by_contra hfar
  have hsome := @Nat.length_toDigits_pos 10 digits
  have hlarge : 10 ^ 400 * 10 ^ (-e).toNat ≤ digits * 10 ^ e.toNat :=
    calc 10 ^ 400 * 10 ^ (-e).toNat
      _ = 10 ^ (400 + (-e).toNat) := by rw [Nat.pow_add]
      _ ≤ 10 ^ ((Nat.toDigits 10 digits).length - 1 + e.toNat) :=
        Nat.pow_le_pow_right (by decide) (by omega)
      _ = 10 ^ ((Nat.toDigits 10 digits).length - 1) * 10 ^ e.toNat := Nat.pow_add ..
      _ ≤ digits * 10 ^ e.toNat :=
        Nat.mul_le_mul_right _
          (pow_le_of_length_toDigits (Nat.pos_of_ne_zero hdigits) (by omega))
  have hlimit := limit_far
  generalize 10 ^ 400 = c at hlarge hlimit
  generalize digits * 10 ^ e.toNat = num at hlarge h
  generalize 10 ^ (-e).toNat = den at hlarge h
  have hcontra : 2 * limit * den ≤ num * unit :=
    calc 2 * limit * den
      _ ≤ c * unit * den := Nat.mul_le_mul_right den hlimit
      _ = c * den * unit := by ring
      _ ≤ num * unit := Nat.mul_le_mul_right unit hlarge
  rw [Nat.mul_assoc] at hcontra
  omega

/-- No decimal number near a held one is far from all finite numbers. -/
theorem lead_of_near (hheld : Held steps) (hpos : 0 < steps) (hdigits : digits ≠ 0)
    (h : NearDecimal steps digits e) :
    -400 ≤ (Nat.toDigits 10 digits).length + e ∧ (Nat.toDigits 10 digits).length + e ≤ 400 := by
  have hden : 0 < 10 ^ (-e).toNat := Nat.pow_pos (by decide)
  have hgap : gap steps * 10 ^ (-e).toNat ≤ steps * 10 ^ (-e).toNat :=
    Nat.mul_le_mul_right _ (gap_le hheld hpos)
  have hbelow : gapBelow steps * 10 ^ (-e).toNat ≤ gap steps * 10 ^ (-e).toNat :=
    Nat.mul_le_mul_right _ gapBelow_le
  have hsteps : steps * 10 ^ (-e).toNat < limit * 10 ^ (-e).toNat :=
    Nat.mul_lt_mul_of_pos_right hheld.2 hden
  have hone : 10 ^ (-e).toNat ≤ steps * 10 ^ (-e).toNat := Nat.le_mul_of_pos_left _ hpos
  obtain ⟨hlow, hhigh, -⟩ := h
  exact ⟨lead_ge (by omega), lead_le hdigits (by omega)⟩

/-- A decimal number near a held one is read as it. -/
theorem ofDecimal_of_near (negative : Bool) (hheld : Held steps) (hpos : 0 < steps)
    (hdigits : digits ≠ 0) (h : NearDecimal steps digits e) :
    ofDecimal negative digits e = .finite negative steps hheld := by
  obtain ⟨hleast, hmost⟩ := lead_of_near hheld hpos hdigits h
  rw [ofDecimal_eq negative hdigits hleast hmost]
  exact ofSteps_of_near negative hheld (Nat.pow_pos (by decide)) h

end Double

end FaultDesk
