import FaultDesk.Proofs.Number.Nearest

/-!
Rounding as a map of counts of steps. It keeps the order, it leaves the counts that binary64 holds as they
are, and none of these is closer to a number than the one that the number is rounded to.
-/

namespace FaultDesk

/-! ## Rounding keeps the order -/

theorem roundedQuotient_mono {m n den : Nat} (h : m ≤ n) :
    roundedQuotient m den ≤ roundedQuotient n den := by
  have hquotient : m / den ≤ n / den := Nat.div_le_div_right h
  rcases Nat.lt_or_eq_of_le hquotient with hless | hsame
  · have hup := roundedQuotient_le_succ m den
    have hdown := div_le_roundedQuotient n den
    omega
  · have hm := Nat.div_add_mod m den
    have hn := Nat.div_add_mod n den
    have hrest : m % den ≤ n % den := by
      rw [hsame] at hm
      omega
    unfold roundedQuotient
    dsimp only
    rw [hsame]
    generalize n / den = q at *
    generalize m % den = r at *
    generalize n % den = r' at *
    repeat' split
    all_goals omega

theorem roundedQuotient_mul {k den : Nat} (hden : 0 < den) : roundedQuotient (k * den) den = k := by
  unfold roundedQuotient
  simp [Nat.mul_div_cancel k hden, hden]

namespace Double

/-- The count of steps nearest to `num / den` steps. -/
def nearestSteps (num den : Nat) : Nat :=
  roundedQuotient num (den * gap (num / den)) * gap (num / den)

theorem ofSteps_eq (negative : Bool) (num den : Nat) :
    ofSteps negative num den = pack negative (nearestSteps num den) := rfl

/-- A multiple of its gap is nearest to itself. -/
theorem nearestSteps_mul {t den : Nat} (hden : 0 < den) (ht : gap t ∣ t) :
    nearestSteps (t * den) den = t := by
  obtain ⟨k, hk⟩ := ht
  unfold nearestSteps
  rw [Nat.mul_div_cancel t hden]
  have hmul : t * den = k * (den * gap t) := by
    conv_lhs => rw [hk]
    ring
  rw [hmul, roundedQuotient_mul (Nat.mul_pos hden (gap_pos t)), Nat.mul_comm, ← hk]

theorem gap_dvd_two_pow {q e : Nat} (h : q.log2 ≤ e) : gap q ∣ 2 ^ e :=
  Nat.pow_dvd_pow 2 (by omega)

/-- The nearest count is not past the next power of two. -/
theorem nearestSteps_le {num den : Nat} (hden : 0 < den) :
    nearestSteps num den ≤ 2 ^ ((num / den).log2 + 1) := by
  have hbelow : num ≤ 2 ^ ((num / den).log2 + 1) * den := by
    have hlog : num / den < 2 ^ ((num / den).log2 + 1) := Nat.lt_log2_self
    exact ((Nat.div_lt_iff_lt_mul hden).mp hlog).le
  obtain ⟨k, hk⟩ := @gap_dvd_two_pow (num / den) ((num / den).log2 + 1) (Nat.le_succ _)
  have hmul : 2 ^ ((num / den).log2 + 1) * den = k * (den * gap (num / den)) := by
    rw [hk]
    ring
  have hquotient := @roundedQuotient_mono _ _ (den * gap (num / den)) hbelow
  rw [hmul, roundedQuotient_mul (Nat.mul_pos hden (gap_pos _))] at hquotient
  calc nearestSteps num den ≤ k * gap (num / den) := Nat.mul_le_mul_right _ hquotient
    _ = 2 ^ ((num / den).log2 + 1) := by rw [hk, Nat.mul_comm]

/-- The nearest count is not before the last power of two. -/
theorem le_nearestSteps {num den : Nat} (hden : 0 < den) (hone : num / den ≠ 0) :
    2 ^ (num / den).log2 ≤ nearestSteps num den := by
  have habove : 2 ^ (num / den).log2 * den ≤ num :=
    (Nat.le_div_iff_mul_le hden).mp (Nat.log2_self_le hone)
  obtain ⟨k, hk⟩ := @gap_dvd_two_pow (num / den) (num / den).log2 le_rfl
  have hmul : 2 ^ (num / den).log2 * den = k * (den * gap (num / den)) := by
    conv_lhs => rw [hk]
    ring
  have hquotient := @roundedQuotient_mono _ _ (den * gap (num / den)) habove
  rw [hmul, roundedQuotient_mul (Nat.mul_pos hden (gap_pos _))] at hquotient
  calc 2 ^ (num / den).log2 = k * gap (num / den) := by rw [Nat.mul_comm, ← hk]
    _ ≤ nearestSteps num den := Nat.mul_le_mul_right _ hquotient

theorem log2_mono {m n : Nat} (h : m ≤ n) : m.log2 ≤ n.log2 := by
  rcases Nat.eq_zero_or_pos m with rfl | hpos
  · exact Nat.zero_le _
  · exact (Nat.le_log2 (by omega)).mpr ((Nat.log2_self_le hpos.ne').trans h)

theorem nearestSteps_mono {m n den : Nat} (hden : 0 < den) (h : m ≤ n) :
    nearestSteps m den ≤ nearestSteps n den := by
  have hquotient : m / den ≤ n / den := Nat.div_le_div_right h
  rcases Nat.lt_trichotomy (m / den).log2 (n / den).log2 with hless | hsame | hmore
  · have hone : n / den ≠ 0 := by
      intro hzero
      rw [hzero] at hless
      exact Nat.not_lt_zero _ hless
    calc nearestSteps m den ≤ 2 ^ ((m / den).log2 + 1) := nearestSteps_le hden
      _ ≤ 2 ^ (n / den).log2 := Nat.pow_le_pow_right (by decide) hless
      _ ≤ nearestSteps n den := le_nearestSteps hden hone
  · have hgap : gap (m / den) = gap (n / den) := by unfold gap; rw [hsame]
    unfold nearestSteps
    rw [hgap]
    exact Nat.mul_le_mul_right _ (roundedQuotient_mono h)
  · have hle := log2_mono hquotient
    omega

/-- A nearest count is one that binary64 holds, unless it is too large. -/
theorem held_nearestSteps {num den : Nat} (hden : 0 < den) (h : nearestSteps num den < limit) :
    Held (nearestSteps num den) := by
  refine ⟨Nat.mod_eq_zero_of_dvd ?_, h⟩
  rcases Nat.lt_or_eq_of_le (@nearestSteps_le num den hden) with hbelow | hpower
  · have hbits : (nearestSteps num den).log2 ≤ (num / den).log2 := by
      rcases Nat.eq_zero_or_pos (nearestSteps num den) with hzero | hpos
      · simp [hzero]
      · exact Nat.le_of_lt_succ ((Nat.log2_lt hpos.ne').mpr hbelow)
    exact (Nat.pow_dvd_pow 2 (by omega)).trans (Nat.dvd_mul_left (gap (num / den)) _)
  · rw [hpower]
    exact gap_dvd_two_pow (Nat.log2_two_pow).le

/-- How far a count of steps is from `num / den` steps, in parts of a step. -/
def off (t num den : Nat) : Nat := ((t * den : Nat) - (num : Nat) : Int).natAbs

variable {num den t : Nat}

/-- No multiple of the gap is closer. -/
theorem off_nearestSteps_le_of_dvd (hden : 0 < den) (ht : gap (num / den) ∣ t) :
    off (nearestSteps num den) num den ≤ off t num den := by
  obtain ⟨j, rfl⟩ := ht
  obtain ⟨hlow, hhigh⟩ := @roundedQuotient_near num (den * gap (num / den))
    (Nat.mul_pos hden (gap_pos _))
  unfold off nearestSteps
  generalize roundedQuotient num (den * gap (num / den)) = q at hlow hhigh
  generalize gap (num / den) = g at hlow hhigh
  have hq : q * (den * g) = q * g * den := by ring
  have hj : j * (den * g) = g * j * den := by ring
  rw [← hq, ← hj]
  rcases Nat.lt_trichotomy j q with hless | rfl | hmore
  · have hstep : (j + 1) * (den * g) ≤ q * (den * g) := Nat.mul_le_mul_right _ hless
    rw [Nat.add_mul, Nat.one_mul] at hstep
    omega
  · exact le_rfl
  · have hstep : (q + 1) * (den * g) ≤ j * (den * g) := Nat.mul_le_mul_right _ hmore
    rw [Nat.add_mul, Nat.one_mul] at hstep
    omega

/-- No count that binary64 holds is closer. One that is no multiple of the gap lies below the last power of
two, and further off than this. -/
theorem off_nearestSteps_le (hden : 0 < den) (ht : Held t) :
    off (nearestSteps num den) num den ≤ off t num den := by
  rcases Nat.eq_zero_or_pos (num / den) with hzero | hpos
  · refine off_nearestSteps_le_of_dvd hden ?_
    rw [hzero]
    exact Nat.one_dvd t
  · rcases Nat.lt_or_ge t (2 ^ (num / den).log2) with hbelow | habove
    · have hpower := @off_nearestSteps_le_of_dvd num den (2 ^ (num / den).log2) hden (gap_dvd_two_pow le_rfl)
      have hreached : 2 ^ (num / den).log2 * den ≤ num :=
        (Nat.le_div_iff_mul_le hden).mp (Nat.log2_self_le hpos.ne')
      have hless : t * den ≤ 2 ^ (num / den).log2 * den := Nat.mul_le_mul_right den hbelow.le
      unfold off at hpower ⊢
      omega
    · have hlog : (num / den).log2 ≤ t.log2 := by
        have ht0 : t ≠ 0 := by
          have := Nat.two_pow_pos (num / den).log2
          omega
        exact (Nat.le_log2 ht0).mpr habove
      refine off_nearestSteps_le_of_dvd hden ?_
      exact (Nat.pow_dvd_pow 2 (by omega)).trans (Nat.dvd_of_mod_eq_zero ht.1)

/-- A number is rounded up to a power of two from the middle between it and the last count of fewer bits
on. -/
theorem two_pow_le_nearestSteps_iff {k : Nat} (hden : 0 < den) :
    2 ^ (53 + (k + 1)) ≤ nearestSteps num den ↔ (2 ^ 54 - 1) * 2 ^ k * den ≤ num := by
  have hpower : 2 ^ (53 + (k + 1)) = 2 ^ 53 * 2 ^ (k + 1) := Nat.pow_add ..
  have hdouble : 2 ^ (k + 1) = 2 * 2 ^ k := Nat.pow_succ'
  have hhalf : 2 ^ (52 + (k + 1)) = 2 ^ 53 * 2 ^ k := by
    rw [← Nat.pow_add]
    congr 1
    omega
  have hpos : 0 < 2 ^ k := Nat.two_pow_pos k
  rcases Nat.lt_or_ge (num / den) (2 ^ (52 + (k + 1))) with hless | hmany
  · have hbits : (num / den).log2 + 1 ≤ 52 + (k + 1) := by
      rcases Nat.eq_zero_or_pos (num / den) with hzero | hsome
      · rw [hzero, Nat.log2_zero]
        omega
      · exact (Nat.log2_lt hsome.ne').mpr hless
    have hnearest : nearestSteps num den ≤ 2 ^ 53 * 2 ^ k :=
      hhalf ▸ (nearestSteps_le hden).trans (Nat.pow_le_pow_right (by decide) hbits)
    have hnum : num < 2 ^ 53 * 2 ^ k * den := hhalf ▸ (Nat.div_lt_iff_lt_mul hden).mp hless
    have hmiddle : 2 ^ 53 * 2 ^ k * den ≤ (2 ^ 54 - 1) * 2 ^ k * den :=
      Nat.mul_le_mul_right _ (Nat.mul_le_mul_right _ (by decide))
    constructor <;> intro h <;> omega
  · rcases Nat.lt_or_ge (num / den) (2 ^ (53 + (k + 1))) with hinside | hpast
    · have hgap := gap_of_bits hmany hinside
      have hscaled : 0 < den * 2 ^ (k + 1) := Nat.mul_pos hden (Nat.two_pow_pos _)
      have hmiddle := @le_roundedQuotient_even_iff num (den * 2 ^ (k + 1)) (2 ^ 52) hscaled (by decide)
      have heven : (4 * 2 ^ 52 - 1) * (den * 2 ^ (k + 1)) = 2 * ((2 ^ 54 - 1) * 2 ^ k * den) := by
        rw [hdouble]
        ring
      rw [heven, Nat.mul_le_mul_left_iff (by decide)] at hmiddle
      unfold nearestSteps
      rw [hgap, hpower, Nat.mul_le_mul_right_iff (Nat.two_pow_pos _), ← hmiddle]
      rfl
    · have hne : num / den ≠ 0 := by
        have := Nat.two_pow_pos (53 + (k + 1))
        omega
      have hlog : 53 + (k + 1) ≤ (num / den).log2 := (Nat.le_log2 hne).mpr hpast
      have hnearest : 2 ^ (53 + (k + 1)) ≤ nearestSteps num den :=
        (Nat.pow_le_pow_right (by decide) hlog).trans (le_nearestSteps hden hne)
      have hreached : 2 ^ (53 + (k + 1)) * den ≤ num := (Nat.le_div_iff_mul_le hden).mp hpast
      have hmiddle : (2 ^ 54 - 1) * 2 ^ k * den ≤ 2 ^ (53 + (k + 1)) * den := by
        refine Nat.mul_le_mul_right _ ?_
        rw [hpower, hdouble]
        omega
      exact ⟨fun _ => hmiddle.trans hreached, fun _ => hnearest⟩

/-! ## The number nearest to a fraction -/

/-- The number is nearest to `num / den` with its sign: no finite one is closer, and it is infinite from the
middle between the greatest finite one and the next power of two on. -/
structure IsNearest (negative : Bool) (x : Double) (num den : Nat) : Prop where
  infinite : (2 ^ 54 - 1) * 2 ^ 970 * den ≤ num → x = .infinite negative
  finite : num < (2 ^ 54 - 1) * 2 ^ 970 * den → ∃ steps held, x = .finite negative steps held ∧
    ∀ t, Held t → off steps (num * unit) den ≤ off t (num * unit) den

variable (negative : Bool)

/-- The middle below the limit, in units and in steps. -/
theorem limit_le_nearestSteps_iff (hden : 0 < den) :
    limit ≤ nearestSteps (num * unit) den ↔ (2 ^ 54 - 1) * 2 ^ 970 * den ≤ num := by
  obtain ⟨a, ha⟩ : ∃ a, a = 970 := ⟨970, rfl⟩
  obtain ⟨b, hb⟩ : ∃ b, b = 1074 := ⟨1074, rfl⟩
  have hsplit : (2 ^ 54 - 1) * 2 ^ (a + b) * den = (2 ^ 54 - 1) * 2 ^ a * den * 2 ^ b := by
    rw [Nat.pow_add]
    ring
  rw [← ha, unit_eq hb, limit_eq (show 53 + (a + b + 1) = 2098 by omega), two_pow_le_nearestSteps_iff hden,
    hsplit]
  exact Nat.mul_le_mul_right_iff (Nat.two_pow_pos b)

theorem isNearest_ofSteps (hden : 0 < den) :
    IsNearest negative (ofSteps negative (num * unit) den) num den := by
  rw [ofSteps_eq, pack]
  constructor
  · intro hlarge
    have hlimit := (limit_le_nearestSteps_iff hden).mpr hlarge
    exact dif_neg fun hheld => Nat.not_lt.mpr hlimit hheld.2
  · intro hsmall
    have hlimit := mt (limit_le_nearestSteps_iff hden).mp (Nat.not_le.mpr hsmall)
    have hheld := held_nearestSteps hden (Nat.not_le.mp hlimit)
    exact ⟨_, hheld, dif_pos hheld, fun t ht => off_nearestSteps_le hden ht⟩

/-- What is less than half a step is nearest to zero. -/
theorem isNearest_zero (h : 2 * (num * unit) < den) : IsNearest negative (pack negative 0) num den := by
  have hsmall : num < (2 ^ 54 - 1) * 2 ^ 970 * den := by
    have hfactor (k : Nat) : 0 < (2 ^ 54 - 1) * 2 ^ k := Nat.mul_pos (by decide) (Nat.two_pow_pos k)
    calc num
      _ ≤ num * unit := Nat.le_mul_of_pos_right _ unit_pos
      _ < den := by omega
      _ ≤ (2 ^ 54 - 1) * 2 ^ 970 * den := Nat.le_mul_of_pos_left _ (hfactor 970)
  refine ⟨fun hlarge => absurd hlarge (Nat.not_le.mpr hsmall), fun _ => ?_⟩
  refine ⟨0, held_zero, pack_of_held negative held_zero, fun t _ => ?_⟩
  unfold off
  rcases Nat.eq_zero_or_pos t with rfl | hpos
  · exact le_rfl
  · have hstep : den ≤ t * den := Nat.le_mul_of_pos_left _ hpos
    omega

/-- What is at least the limit is nearest to no finite number. -/
theorem isNearest_infinite (hden : 0 < den) (h : limit * den ≤ num * unit) :
    IsNearest negative (.infinite negative) num den := by
  have hdvd : gap limit ∣ limit := by
    obtain ⟨k, hk⟩ : ∃ k, k = 2098 := ⟨2098, rfl⟩
    rw [limit_eq hk]
    exact gap_dvd_two_pow Nat.log2_two_pow.le
  have hlimit : limit ≤ nearestSteps (num * unit) den := by
    have hmono := nearestSteps_mono hden h
    rwa [nearestSteps_mul hden hdvd] at hmono
  have hlarge := (limit_le_nearestSteps_iff hden).mp hlimit
  exact ⟨fun _ => rfl, fun hsmall => absurd hlarge (Nat.not_le.mpr hsmall)⟩

/-- A decimal number is read as the number nearest to it. -/
theorem isNearest_ofDecimal (digits : Nat) (e : Int) :
    IsNearest negative (ofDecimal negative digits e) (digits * 10 ^ e.toNat) (10 ^ (-e).toNat) := by
  have hden : 0 < 10 ^ (-e).toNat := Nat.pow_pos (by decide)
  rcases Nat.eq_zero_or_pos digits with rfl | hpos
  · rw [ofDecimal, if_pos rfl]
    exact isNearest_zero negative (by simp)
  · by_cases hleast : -400 ≤ (Nat.toDigits 10 digits).length + e
    · by_cases hmost : (Nat.toDigits 10 digits).length + e ≤ 400
      · rw [ofDecimal_eq negative hpos.ne' hleast hmost]
        exact isNearest_ofSteps negative hden
      · have hfar := mt (lead_le hpos.ne') hmost
        have hinfinite : ofDecimal negative digits e = .infinite negative := by
          unfold ofDecimal
          dsimp only
          rw [if_neg hpos.ne', if_pos (by omega)]
        rw [hinfinite]
        exact isNearest_infinite negative hden (by omega)
    · have hfar := mt lead_ge hleast
      have hzero : ofDecimal negative digits e = pack negative 0 := by
        unfold ofDecimal
        dsimp only
        rw [if_neg hpos.ne', if_neg (by omega), if_pos (by omega)]
      rw [hzero]
      exact isNearest_zero negative (by omega)

end Double

end FaultDesk
