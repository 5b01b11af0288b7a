import FaultDesk.Number.Double
import Mathlib.Tactic.Ring

/-!
Which whole numbers have no finite binary64 number near them. Rounding a count of steps keeps 53 bits,
so the count that comes out is always one that binary64 holds, unless it is too large; the last count
below the limit is left as soon as the whole number reaches the middle between it and the limit.
-/

namespace FaultDesk

theorem div_le_roundedQuotient (num den : Nat) : num / den ≤ roundedQuotient num den := by
  unfold roundedQuotient
  dsimp only
  split
  next => exact le_rfl
  next =>
    split
    next => omega
    next => omega

theorem roundedQuotient_le_succ (num den : Nat) : roundedQuotient num den ≤ num / den + 1 := by
  unfold roundedQuotient
  dsimp only
  split
  next => omega
  next =>
    split
    next => omega
    next =>
      have := Nat.mod_lt (num / den) (show 0 < 2 by decide)
      omega

/-- An even number is reached from the middle below it on: the tie goes up. -/
theorem le_roundedQuotient_even_iff {num den half : Nat} (hden : 0 < den) (hhalf : 0 < half) :
    2 * half ≤ roundedQuotient num den ↔ (4 * half - 1) * den ≤ 2 * num := by
  have hnum := Nat.div_add_mod num den
  have hrest := Nat.mod_lt num hden
  have hlow := div_le_roundedQuotient num den
  have hhigh := roundedQuotient_le_succ num den
  have hmiddle : (4 * half - 1) * den + den = 2 * (den * (2 * half)) := by
    rw [← Nat.succ_mul, show (4 * half - 1).succ = 2 * (2 * half) by omega, Nat.mul_assoc,
      Nat.mul_comm den]
  rcases lt_trichotomy (num / den + 1) (2 * half) with hless | hnear | hmore
  · have hbelow : den * (num / den + 1 + 1) ≤ den * (2 * half) := Nat.mul_le_mul_left den hless
    rw [Nat.mul_add, Nat.mul_add] at hbelow
    constructor <;> intro h <;> omega
  · rw [← hnear, Nat.mul_add] at hmiddle
    have hodd : num / den % 2 = 1 := by omega
    unfold roundedQuotient
    dsimp only
    split
    next h => constructor <;> intro h' <;> omega
    next h =>
      split
      next h' => constructor <;> intro h'' <;> omega
      next h' => constructor <;> intro h'' <;> omega
  · have habove : den * (2 * half) ≤ den * (num / den) := Nat.mul_le_mul_left den (by omega)
    constructor <;> intro h <;> omega

namespace Double

/-- A count of steps rounded to the bits that are kept. -/
def rounded (m : Nat) : Nat := roundedQuotient m (gap m) * gap m

variable {m k : Nat}

theorem log2_of_bits (hlow : 2 ^ (52 + k) ≤ m) (hhigh : m < 2 ^ (53 + k)) : m.log2 = 52 + k := by
  have hne : m ≠ 0 := by
    have := Nat.two_pow_pos (52 + k)
    omega
  have hhigh' : m < 2 ^ (52 + k + 1) := by rwa [show 52 + k + 1 = 53 + k by omega]
  exact (Nat.log2_eq_iff hne).mpr ⟨hlow, hhigh'⟩

theorem gap_of_bits (hlow : 2 ^ (52 + k) ≤ m) (hhigh : m < 2 ^ (53 + k)) : gap m = 2 ^ k := by
  unfold gap
  rw [log2_of_bits hlow hhigh, show 52 + k + 1 - 53 = k by omega]
  rfl

/-- A count of at least 53 bits keeps 53 of them: it is rounded to a multiple of its gap, and not past
the next power of two. -/
theorem rounded_of_bits (hlow : 2 ^ (52 + k) ≤ m) (hhigh : m < 2 ^ (53 + k)) :
    ∃ q, rounded m = q * 2 ^ k ∧ 2 ^ 52 ≤ q ∧ q ≤ 2 ^ 53 ∧
      (q = 2 ^ 53 ↔ (2 ^ 54 - 1) * 2 ^ k ≤ 2 * m) := by
  have hgap : 0 < 2 ^ k := Nat.two_pow_pos k
  refine ⟨roundedQuotient m (2 ^ k), by rw [rounded, gap_of_bits hlow hhigh], ?_⟩
  have hfloor : 2 ^ 52 ≤ m / 2 ^ k := by
    rw [Nat.le_div_iff_mul_le hgap, ← Nat.pow_add]
    exact hlow
  have hceiling : m / 2 ^ k < 2 ^ 53 := by
    rw [Nat.div_lt_iff_lt_mul hgap, ← Nat.pow_add]
    exact hhigh
  have hfrom := div_le_roundedQuotient m (2 ^ k)
  have hto := roundedQuotient_le_succ m (2 ^ k)
  have htop := @le_roundedQuotient_even_iff m (2 ^ k) (2 ^ 52) hgap (by decide)
  rw [show 4 * 2 ^ 52 - 1 = 2 ^ 54 - 1 by decide, show 2 * 2 ^ 52 = 2 ^ 53 by decide] at htop
  refine ⟨by omega, by omega, ?_⟩
  rw [← htop]
  omega

theorem rounded_of_few (h : m < 2 ^ 53) : gap m = 1 ∧ rounded m = m := by
  have hgap : gap m = 1 := by
    unfold gap
    rcases Nat.eq_zero_or_pos m with rfl | hpos
    · rfl
    · have := (Nat.log2_lt hpos.ne').mpr h
      rw [show m.log2 + 1 - 53 = 0 by omega, Nat.pow_eq, Nat.pow_zero]
  exact ⟨hgap, by rw [rounded, hgap, roundedQuotient_one, Nat.mul_one]⟩

theorem exists_bits (h : 2 ^ 53 ≤ m) : ∃ j, 2 ^ (52 + j) ≤ m ∧ m < 2 ^ (53 + j) := by
  have hne : m ≠ 0 := by omega
  have hbits : 53 ≤ m.log2 := (Nat.le_log2 hne).mpr h
  refine ⟨m.log2 - 52, ?_, ?_⟩
  · rw [show 52 + (m.log2 - 52) = m.log2 by omega]
    exact Nat.log2_self_le hne
  · rw [show 53 + (m.log2 - 52) = m.log2 + 1 by omega]
    exact Nat.lt_log2_self

/-- A count is never rounded to one with more bits than are kept. -/
theorem held_rounded_iff : Held (rounded m) ↔ rounded m < limit := by
  unfold Held
  refine and_iff_right ?_
  rcases Nat.lt_or_ge m (2 ^ 53) with hfew | hmany
  · obtain ⟨hgap, hsame⟩ := rounded_of_few hfew
    rw [hsame, hgap, Nat.mod_one]
  · obtain ⟨j, hlow, hhigh⟩ := exists_bits hmany
    obtain ⟨q, hq, hfrom, hto, -⟩ := rounded_of_bits hlow hhigh
    rw [hq]
    rcases Nat.lt_or_ge q (2 ^ 53) with hinside | hpower
    · have hgap : gap (q * 2 ^ j) = 2 ^ j := by
        apply gap_of_bits
        · rw [Nat.pow_add]
          exact Nat.mul_le_mul_right _ hfrom
        · rw [Nat.pow_add]
          exact Nat.mul_lt_mul_of_pos_right hinside (Nat.two_pow_pos j)
      rw [hgap, Nat.mul_mod_left]
    · obtain rfl : q = 2 ^ 53 := le_antisymm hto hpower
      rw [← Nat.pow_add]
      have hgap : gap (2 ^ (53 + j)) = 2 ^ (j + 1) := by
        apply gap_of_bits
        · exact Nat.pow_le_pow_right (by decide) (by omega)
        · exact Nat.pow_lt_pow_right (by decide) (by omega)
      rw [hgap]
      exact Nat.mod_eq_zero_of_dvd (Nat.pow_dvd_pow 2 (by omega))

/-- A power of two is reached from the middle between it and the last count of fewer bits on. -/
theorem two_pow_le_rounded_iff : 2 ^ (53 + k) ≤ rounded m ↔ (2 ^ 54 - 1) * 2 ^ k ≤ 2 * m := by
  have hone : 1 ≤ 2 ^ k := Nat.two_pow_pos k
  have hsplit : 2 ^ (53 + k) = 2 ^ 53 * 2 ^ k := Nat.pow_add 2 53 k
  rcases Nat.lt_or_ge m (2 ^ 53) with hfew | hmany
  · rw [(rounded_of_few hfew).2]
    constructor <;> intro h <;> omega
  · obtain ⟨j, hlow, hhigh⟩ := exists_bits hmany
    obtain ⟨q, hq, hfrom, hto, htop⟩ := rounded_of_bits hlow hhigh
    rw [hq, hsplit]
    rw [Nat.pow_add] at hlow hhigh
    rcases lt_trichotomy j k with hless | rfl | hmore
    · have hbelow : 2 * 2 ^ j ≤ 2 ^ k := by
        rw [← Nat.pow_succ']
        exact Nat.pow_le_pow_right (by decide) hless
      have hmost : q * 2 ^ j ≤ 2 ^ 53 * 2 ^ j := Nat.mul_le_mul_right _ hto
      constructor <;> intro h <;> omega
    · rw [← htop]
      constructor
      · intro h
        exact le_antisymm hto (Nat.le_of_mul_le_mul_right h hone)
      · rintro rfl
        exact le_rfl
    · have habove : 2 * 2 ^ k ≤ 2 ^ j := by
        rw [← Nat.pow_succ']
        exact Nat.pow_le_pow_right (by decide) hmore
      have hleast : 2 ^ 52 * 2 ^ j ≤ q * 2 ^ j := Nat.mul_le_mul_right _ hfrom
      constructor <;> intro h <;> omega

/-- The middle below a power of two, in units of a smaller power. -/
theorem middle_le_iff {n a b : Nat} :
    (2 ^ 54 - 1) * 2 ^ (a + 1 + b) ≤ 2 * (n * 2 ^ b) ↔ (2 ^ 54 - 1) * 2 ^ a ≤ n := by
  have hleft : (2 ^ 54 - 1) * 2 ^ (a + 1 + b) = 2 * 2 ^ b * ((2 ^ 54 - 1) * 2 ^ a) := by
    rw [Nat.pow_add, Nat.pow_succ]
    ring
  have hright : 2 * (n * 2 ^ b) = 2 * 2 ^ b * n := by ring
  have hpos : 0 < 2 * 2 ^ b := Nat.mul_pos (by decide) (Nat.two_pow_pos b)
  rw [hleft, hright]
  exact Nat.mul_le_mul_left_iff hpos

theorem limit_eq (h : k = 2098) : limit = 2 ^ k := by
  unfold limit
  rw [← h]
  rfl

theorem unit_eq (h : k = 1074) : unit = 2 ^ k := by
  unfold unit
  rw [← h]
  rfl

theorem unit_pos : 0 < unit := by decide +kernel

theorem ofInt_eq (n : Int) : ofInt n = pack (decide (n < 0)) (rounded (n.natAbs * unit)) := by
  unfold ofInt ofRatio ofSteps rounded
  simp only [Nat.div_one, Nat.one_mul]

theorem rounded_of_dvd (h : gap m ∣ m) : rounded m = m := by
  obtain ⟨q, hq⟩ := h
  have hmod : m % gap m = 0 := Nat.mod_eq_zero_of_dvd ⟨q, hq⟩
  have hpos := gap_pos m
  rw [rounded, roundedQuotient, hmod]
  rw [if_pos (by omega), Nat.div_mul_cancel ⟨q, hq⟩]

/-- Rounding a whole number leaves a whole number: the bits left out are those of its fraction, or its
units as well. -/
theorem unit_dvd_rounded (n : Nat) : unit ∣ rounded (n * unit) := by
  rcases Nat.lt_or_ge (n * unit) (2 ^ 53) with hfew | hmany
  · rw [(rounded_of_few hfew).2]
    exact Nat.dvd_mul_left unit n
  · obtain ⟨j, hlow, hhigh⟩ := exists_bits hmany
    have hgap := gap_of_bits hlow hhigh
    obtain ⟨k, hk⟩ : ∃ k, k = 1074 := ⟨1074, rfl⟩
    rcases Nat.le_total j k with hfraction | hunits
    · have hdvd : gap (n * unit) ∣ n * unit := by
        rw [hgap, unit_eq hk]
        exact Dvd.dvd.mul_left (Nat.pow_dvd_pow 2 hfraction) n
      rw [rounded_of_dvd hdvd]
      exact Nat.dvd_mul_left unit n
    · rw [rounded, hgap, unit_eq hk]
      exact Dvd.dvd.mul_left (Nat.pow_dvd_pow 2 hunits) _

theorem isWhole_ofInt {n : Int} (h : ∀ negative, ofInt n ≠ .infinite negative) :
    (ofInt n).isWhole = true := by
  rw [ofInt_eq, pack] at h ⊢
  split
  next hheld =>
    have hmod := Nat.mod_eq_zero_of_dvd (unit_dvd_rounded n.natAbs)
    simpa [isWhole] using hmod
  next hheld =>
    rw [dif_neg hheld] at h
    exact absurd rfl (h _)

/-- A whole number is too large from `2 ^ 1024 - 2 ^ 970` on, the middle between the greatest finite
number and the next power of two. -/
theorem ofInt_infinite_iff {n : Int} {negative : Bool} :
    ofInt n = .infinite negative ↔
      negative = decide (n < 0) ∧ (2 ^ 54 - 1) * 2 ^ 970 ≤ n.natAbs := by
  have hlimit : limit ≤ rounded (n.natAbs * unit) ↔ (2 ^ 54 - 1) * 2 ^ 970 ≤ n.natAbs := by
    rw [limit_eq (show 53 + (970 + 1 + 1074) = 2098 by decide), unit_eq rfl]
    exact two_pow_le_rounded_iff.trans middle_le_iff
  rw [ofInt_eq, pack]
  split
  next hheld =>
    have hinside := mt hlimit.mpr (Nat.not_le.mpr (held_rounded_iff.mp hheld))
    simp only [reduceCtorEq, false_iff, not_and]
    exact fun _ => hinside
  next hheld =>
    have houtside := hlimit.mp (Nat.not_lt.mp (mt held_rounded_iff.mpr hheld))
    rw [Double.infinite.injEq, and_iff_left houtside]
    exact ⟨Eq.symm, Eq.symm⟩

end Double

end FaultDesk
