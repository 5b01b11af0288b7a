import FaultDesk.Proofs.Number.Line
import FaultDesk.Proofs.Number.Nearest
import FaultDesk.Proofs.Number.Reading

/-!
A binary64 number is read back from its text. Its fewest digits are looked for on finer and finer grids
of decimal numbers, and seventeen places behind the leading digit the grid is finer than the distance of
two neighbours; whatever is found is near the number, and stays near it in every layout.
-/

namespace FaultDesk

namespace Double

variable {steps num den digits : Nat} {e : Int}

/-! ## One number in several spellings -/

theorem near_mul_iff {c : Nat} (hc : 0 < c) : Near steps (num * c) (den * c) ↔ Near steps num den := by
  have hcancel (a b : Nat) : a * (b * c) = a * b * c := (Nat.mul_assoc a b c).symm
  constructor
  · rintro ⟨hlow, hhigh, hodd⟩
    simp only [hcancel, ← Nat.add_mul] at hlow hhigh hodd
    exact ⟨Nat.le_of_mul_le_mul_right hlow hc, Nat.le_of_mul_le_mul_right hhigh hc, fun h =>
      ⟨Nat.lt_of_mul_lt_mul_right (hodd h).1, Nat.lt_of_mul_lt_mul_right (hodd h).2⟩⟩
  · rintro ⟨hlow, hhigh, hodd⟩
    constructor <;> simp only [hcancel, ← Nat.add_mul]
    · exact Nat.mul_le_mul_right c hlow
    · exact Nat.mul_le_mul_right c hhigh
    · exact fun h => ⟨Nat.mul_lt_mul_of_pos_right (hodd h).1 hc,
        Nat.mul_lt_mul_of_pos_right (hodd h).2 hc⟩

/-- An exponent may be split into two powers in any way. -/
theorem nearDecimal_iff {j k : Nat} (h : e = j - k) :
    NearDecimal steps digits e ↔ Near steps (digits * 10 ^ j * unit) (10 ^ k) := by
  obtain ⟨t, hj, hk⟩ : ∃ t, j = e.toNat + t ∧ k = (-e).toNat + t := ⟨min j k, by omega, by omega⟩
  have hnum : digits * 10 ^ j * unit = digits * 10 ^ e.toNat * unit * 10 ^ t := by
    rw [hj, Nat.pow_add]
    ring
  rw [hnum, hk, Nat.pow_add, near_mul_iff (Nat.pow_pos (by decide)), NearDecimal]

/-- Zeros behind the digits go into the exponent. -/
theorem nearDecimal_zeros_iff {k : Nat} :
    NearDecimal steps (digits * 10 ^ k) e ↔ NearDecimal steps digits (e + k) := by
  rw [nearDecimal_iff (show e + k = ((k + e.toNat : Nat) : Int) - (-e).toNat by omega), NearDecimal,
    Nat.pow_add, Nat.mul_assoc digits]

theorem nearDecimal_trim {s : Scaled} (fuel : Nat) (hdigits : s.digits ≠ 0)
    (h : NearDecimal steps s.digits s.exponent) :
    (Scaled.trim fuel s).digits ≠ 0 ∧
      NearDecimal steps (Scaled.trim fuel s).digits (Scaled.trim fuel s).exponent := by
  induction fuel generalizing s with
  | zero => exact ⟨hdigits, h⟩
  | succ fuel ih =>
    unfold Scaled.trim
    split
    next hzero =>
      have htenfold : s.digits = s.digits / 10 * 10 ^ 1 := by omega
      refine ih (by dsimp only; omega) ?_
      rw [htenfold] at h
      exact nearDecimal_zeros_iff.mp h
    next => exact ⟨hdigits, h⟩

/-! ## The leading digit -/

theorem two_pow_le_ten_pow {n m : Nat} (h : 13 * n ≤ 43 * m) : 2 ^ n ≤ 10 ^ m := by
  rw [← Nat.pow_le_pow_iff_left (show 43 ≠ 0 by decide), ← Nat.pow_mul, ← Nat.pow_mul]
  calc 2 ^ (n * 43)
    _ = (2 ^ 43) ^ n := by rw [← Nat.pow_mul, Nat.mul_comm]
    _ ≤ (10 ^ 13) ^ n := Nat.pow_le_pow_left (by decide) n
    _ = 10 ^ (13 * n) := (Nat.pow_mul ..).symm
    _ ≤ 10 ^ (m * 43) := Nat.pow_le_pow_right (by decide) (by omega)

theorem ten_pow_le_two_pow {n m : Nat} (h : 10 * m ≤ 3 * n) : 10 ^ m ≤ 2 ^ n := by
  rw [← Nat.pow_le_pow_iff_left (show 10 ≠ 0 by decide), ← Nat.pow_mul, ← Nat.pow_mul]
  calc 10 ^ (m * 10)
    _ ≤ 10 ^ (3 * n) := Nat.pow_le_pow_right (by decide) (by omega)
    _ = (10 ^ 3) ^ n := Nat.pow_mul ..
    _ ≤ (2 ^ 10) ^ n := Nat.pow_le_pow_left (by decide) n
    _ = 2 ^ (n * 10) := by rw [← Nat.pow_mul, Nat.mul_comm]

theorem leadFrom_succ (num den fuel : Nat) (e : Int) : leadFrom num den (fuel + 1) e =
    if den * 10 ^ (e + 1).toNat ≤ num * 10 ^ (-(e + 1)).toNat then leadFrom num den fuel (e + 1)
    else e := by
  by_cases h : e + 1 < 0
  · rw [show (e + 1).toNat = 0 by omega, show (-(e + 1)).toNat = (e + 1).natAbs by omega]
    simp [leadFrom, h]
  · rw [show (-(e + 1)).toNat = 0 by omega, show (e + 1).toNat = (e + 1).natAbs by omega]
    simp [leadFrom, h]

/-- The search goes on only as far as the number reaches. -/
theorem leadFrom_reached (fuel : Nat) (h : den * 10 ^ e.toNat ≤ num * 10 ^ (-e).toNat) :
    den * 10 ^ (leadFrom num den fuel e).toNat ≤ num * 10 ^ (-leadFrom num den fuel e).toNat := by
  induction fuel generalizing e with
  | zero => exact h
  | succ fuel ih =>
    rw [leadFrom_succ]
    split
    next hreached => exact ih hreached
    next => exact h

theorem log2_lt_of_held (hheld : Held steps) (hpos : 0 < steps) : steps.log2 < 2098 := by
  obtain ⟨k, hk⟩ : ∃ k, k = 2098 := ⟨2098, rfl⟩
  have hlimit := hheld.2
  rw [limit_eq hk] at hlimit
  rw [← hk]
  exact (Nat.log2_lt hpos.ne').mpr hlimit

/-- The search starts no higher than the number reaches. -/
theorem leadOf_reached (hheld : Held steps) (hpos : 0 < steps) :
    unit * 10 ^ (leadOf steps).toNat ≤ steps * 10 ^ (-leadOf steps).toNat := by
  have hlog : 2 ^ steps.log2 ≤ steps := Nat.log2_self_le hpos.ne'
  have hmost := log2_lt_of_held hheld hpos
  refine leadFrom_reached 5 ?_
  generalize steps.log2 = bits at hlog hmost
  refine le_trans ?_ (Nat.mul_le_mul_right _ hlog)
  obtain ⟨k, hk⟩ : ∃ k, k = 1074 := ⟨1074, rfl⟩
  rw [unit_eq hk]
  rcases Nat.le_total k bits with hlarge | hsmall
  · obtain ⟨n, rfl⟩ := Nat.exists_eq_add_of_le hlarge
    rw [Nat.pow_add, Nat.mul_assoc]
    refine Nat.mul_le_mul_left _ (le_trans ?_ (Nat.le_mul_of_pos_right _ (Nat.pow_pos (by decide))))
    exact ten_pow_le_two_pow (by omega)
  · obtain ⟨n, hn⟩ := Nat.exists_eq_add_of_le hsmall
    rw [hn, Nat.pow_add, Nat.mul_assoc]
    refine Nat.mul_le_mul_left _ ?_
    rw [show (((bits : Int) - 1074) * 30103 / 100000 - 2).toNat = 0 by omega, Nat.pow_zero,
      Nat.mul_one]
    exact two_pow_le_ten_pow (by omega)

/-! ## The fewest digits -/

theorem onGrid_of_readsBack {near : Nat}
    (hround : roundedQuotient (steps * 10 ^ (-e).toNat) (unit * 10 ^ e.toNat) = near)
    (hnear : near ≠ 0 ∧ readsBack steps near e = true) : onGrid steps e = some near := by
  subst hround
  unfold onGrid
  rw [lowered_eq, raised_eq]
  exact if_pos hnear

/-- A number is found on every grid that is finer than the distance to the neighbours. -/
theorem onGrid_of_fine (hheld : Held steps) (hpos : 0 < steps)
    (hfine : unit * 10 ^ e.toNat < gapBelow steps * 10 ^ (-e).toNat) :
    ∃ d, onGrid steps e = some d := by
  have hden : 0 < unit * 10 ^ e.toNat := Nat.mul_pos unit_pos (Nat.pow_pos (by decide))
  have hgap : gapBelow steps * 10 ^ (-e).toNat ≤ gap steps * 10 ^ (-e).toNat :=
    Nat.mul_le_mul_right _ gapBelow_le
  have hsteps : gap steps * 10 ^ (-e).toNat ≤ steps * 10 ^ (-e).toNat :=
    Nat.mul_le_mul_right _ (gap_le hheld hpos)
  obtain ⟨hover, hunder⟩ := @roundedQuotient_near (steps * 10 ^ (-e).toNat) _ hden
  obtain ⟨near, hround⟩ :
    ∃ d, roundedQuotient (steps * 10 ^ (-e).toNat) (unit * 10 ^ e.toNat) = d := ⟨_, rfl⟩
  rw [hround] at hover hunder
  refine ⟨near, onGrid_of_readsBack hround ⟨?_, (readsBack_iff hheld hpos).mpr ?_⟩⟩
  · rintro rfl
    omega
  · have hscaled : near * 10 ^ e.toNat * unit = near * (unit * 10 ^ e.toNat) := by ring
    unfold NearDecimal
    rw [hscaled]
    exact ⟨by omega, by omega, fun _ => ⟨by omega, by omega⟩⟩

/-- What is found on a grid is a positive number near the one looked for. -/
theorem of_onGrid (hheld : Held steps) (hpos : 0 < steps) {d : Nat} (h : onGrid steps e = some d) :
    d ≠ 0 ∧ NearDecimal steps d e := by
  unfold onGrid at h
  extract_lets num den low near far at h
  clear_value near far
  split at h
  next hnear =>
    cases h
    exact ⟨hnear.1, (readsBack_iff hheld hpos).mp hnear.2⟩
  next =>
    split at h
    next hfar =>
      cases h
      exact ⟨hfar.1, (readsBack_iff hheld hpos).mp hfar.2⟩
    next => cases h

/-- The search over the grids ends with a number that was found on one of them. -/
theorem of_shortestFrom (hheld : Held steps) (hpos : 0 < steps) {lead : Int} {fuel count k : Nat}
    (hfrom : count ≤ k) (hto : k < count + fuel) {d : Nat} (h : onGrid steps (lead - k) = some d) :
    (shortestFrom steps lead fuel count).digits ≠ 0 ∧
      NearDecimal steps (shortestFrom steps lead fuel count).digits
        (shortestFrom steps lead fuel count).exponent := by
  induction fuel generalizing count with
  | zero => omega
  | succ fuel ih =>
    unfold shortestFrom
    dsimp only
    split
    next d' hfound =>
      obtain ⟨hdigits, hnear⟩ := of_onGrid hheld hpos hfound
      exact nearDecimal_trim 20 hdigits hnear
    next hnone =>
      refine ih ?_ (by omega)
      rcases Nat.eq_or_lt_of_le hfrom with rfl | hlater
      · rw [h] at hnone
        cases hnone
      · exact hlater

theorem lt_gap_mul (n : Nat) : n < 2 ^ 53 * gap n := by
  rcases Nat.lt_or_ge n (2 ^ 53) with hfew | hmany
  · rw [(rounded_of_few hfew).1, Nat.mul_one]
    exact hfew
  · obtain ⟨k, hleast, hmost⟩ := exists_bits hmany
    rw [gap_of_bits hleast hmost, ← Nat.pow_add]
    exact hmost

/-- Seventeen places behind the leading digit the grid is fine enough. -/
theorem fine_of_seventeen (hheld : Held steps) (hpos : 0 < steps) (he : e = leadOf steps - 17) :
    unit * 10 ^ e.toNat < gapBelow steps * 10 ^ (-e).toNat := by
  have hreached := leadOf_reached hheld hpos
  have hbits : steps * 10 ^ (-e).toNat < 2 ^ 54 * (gapBelow steps * 10 ^ (-e).toNat) := by
    rw [← Nat.mul_assoc]
    refine Nat.mul_lt_mul_of_pos_right ?_ (Nat.pow_pos (by decide))
    have hgap := lt_gap_mul steps
    have htwice := @gap_le_twice_gapBelow steps
    omega
  have hplaces : unit * 10 ^ e.toNat * 10 ^ 17 ≤ steps * 10 ^ (-e).toNat := by
    have hsum : (leadOf steps).toNat + (-e).toNat = e.toNat + 17 + (-leadOf steps).toNat := by omega
    refine Nat.le_of_mul_le_mul_right (c := 10 ^ (-leadOf steps).toNat) ?_ (Nat.pow_pos (by decide))
    calc unit * 10 ^ e.toNat * 10 ^ 17 * 10 ^ (-leadOf steps).toNat
      _ = unit * 10 ^ (e.toNat + 17 + (-leadOf steps).toNat) := by rw [Nat.pow_add, Nat.pow_add]; ring
      _ = unit * 10 ^ (leadOf steps).toNat * 10 ^ (-e).toNat := by
        rw [← hsum, Nat.pow_add, Nat.mul_assoc]
      _ ≤ steps * 10 ^ (-leadOf steps).toNat * 10 ^ (-e).toNat := Nat.mul_le_mul_right _ hreached
      _ = steps * 10 ^ (-e).toNat * 10 ^ (-leadOf steps).toNat := Nat.mul_right_comm ..
  omega

theorem shortest_near (hheld : Held steps) (hpos : 0 < steps) :
    (shortest steps).digits ≠ 0 ∧
      NearDecimal steps (shortest steps).digits (shortest steps).exponent := by
  obtain ⟨d, hd⟩ := onGrid_of_fine hheld hpos (fine_of_seventeen hheld hpos rfl)
  exact of_shortestFrom (k := 17) hheld hpos (by decide) (by decide) hd

end Double

/-! ## Layouts -/

namespace Layout

theorem exponentText_eq (l : Layout) (e : Int) : l.exponentText e =
    (if e < 0 then '-' else '+') :: Whole.figures l.exponentWidth e.natAbs := by
  rw [Whole.figures_eq]
  rfl

/-- The library's own layout spells the digits, with zeros behind them or as they are. -/
theorem spells_write (s : Scaled) :
    ∃ k : Nat, Numeral.Spells (Double.plainLayout.write s) (s.digits * 10 ^ k) (s.exponent - k) := by
  have hds := areDigits_toDigits s.digits
  have hvalue := Numeral.valueOf_toDigits s.digits
  have hfigures : s.figures = Nat.toDigits 10 s.digits := rfl
  have hlead : s.lead = (Nat.toDigits 10 s.digits).length + s.exponent - 1 := rfl
  unfold write
  rw [hfigures, hlead]
  generalize Nat.toDigits 10 s.digits = ds at hds hvalue
  generalize s.exponent = e
  rw [← hvalue]
  have hsame {cs : List Char} (h : Numeral.Spells cs (Numeral.valueOf ds) e) :
      ∃ k : Nat, Numeral.Spells cs (Numeral.valueOf ds * 10 ^ k) (e - k) := ⟨0, by simpa using h⟩
  dsimp only
  split
  next hplain =>
    split
    next hwhole =>
      refine ⟨e.natAbs + 1, ?_⟩
      rw [show e - ((e.natAbs + 1 : Nat) : Int) = -1 by omega]
      exact Numeral.spells_round e.natAbs hds
    next =>
      split
      next hleft =>
        have h := @Numeral.spells_cut ds (ds.length - e.natAbs) hds.2 (by omega) (by omega)
        rw [Nat.cast_sub (by omega), show ((ds.length : Int) - e.natAbs) - ds.length = e by omega] at h
        exact hsame h
      next hleft =>
        have h := Numeral.spells_below_one (((ds.length : Int) + e - 1).natAbs - 1) hds.2
        rw [show -((((ds.length : Int) + e - 1).natAbs - 1 + ds.length : Nat) : Int) = e by omega] at h
        exact hsame h
  next =>
    obtain ⟨c, rest, rfl⟩ := List.exists_cons_of_ne_nil hds.1
    have hmark := Numeral.exponentPart_signed (Or.inl rfl)
      (Whole.areDigits_figures 2 (((c :: rest).length : Int) + e - 1).natAbs)
      (Whole.valueOf_figures 2 _)
    have h := Numeral.spells_leading hds.2 hmark
    rw [show (((c :: rest).length : Int) + e - 1) - rest.length = e by
      rw [List.length_cons]
      omega] at h
    rw [exponentText_eq]
    cases rest with
    | nil => exact hsame h
    | cons d more => exact hsame h

end Layout

/-! ## Texts -/

namespace Double

/-- A finite number's text spells decimal digits that are read as the number. -/
theorem text_finite (negative : Bool) (hheld : Held steps) :
    ∃ cs m k, (finite negative steps hheld).text =
        String.ofList ((if negative then ['-'] else []) ++ cs) ∧
      Numeral.Spells cs m k ∧ ofDecimal negative m k = .finite negative steps hheld := by
  rcases Nat.eq_zero_or_pos steps with rfl | hpos
  · have h := Numeral.spells_round 0 (areDigits_toDigits 0)
    refine ⟨_, _, _, rfl, h, ?_⟩
    exact (if_pos (by decide)).trans (pack_of_held negative hheld)
  · obtain ⟨hdigits, hnear⟩ := shortest_near hheld hpos
    obtain ⟨k, h⟩ := Layout.spells_write (shortest steps)
    refine ⟨_, _, _, ?_, h, ?_⟩
    · simp only [text, textIn, if_neg hpos.ne']
    · refine ofDecimal_of_near negative hheld hpos (Nat.mul_ne_zero hdigits (by simp)) ?_
      rw [nearDecimal_zeros_iff, Int.sub_add_cancel]
      exact hnear

/-- A number is read back from its text. -/
theorem ofText?_text {d : Double} (h : d.isNan = false) : ofText? d.text = some d := by
  cases d with
  | nan => cases h
  | infinite negative => cases negative <;> decide +kernel
  | finite negative steps hheld =>
    obtain ⟨cs, m, k, htext, hspells, hvalue⟩ := text_finite negative hheld
    rw [htext, Numeral.ofText?_spelled hspells, hvalue]

theorem strip_text {d : Double} (h : d.isNan = false) : Text.strip d.text = d.text := by
  cases d with
  | nan => cases h
  | infinite negative => cases negative <;> decide +kernel
  | finite negative steps hheld =>
    obtain ⟨cs, m, k, htext, hspells, -⟩ := text_finite negative hheld
    rw [htext, Text.strip, String.toList_ofList, Numeral.stripped_spelled hspells]

/-! ## Whole numbers -/

theorem toString_eq (n : Int) :
    toString n = String.ofList ((if n < 0 then ['-'] else []) ++ Nat.toDigits 10 n.natAbs) := by
  cases n with
  | ofNat n => rfl
  | negSucc n =>
    rw [if_pos (Int.negSucc_lt_zero n), String.ofList_append]
    rfl

theorem ofText?_toString (n : Int) :
    ofText? (toString n) = some (ofDecimal (decide (n < 0)) n.natAbs 0) := by
  have hspells := @Numeral.spells_whole (Nat.toDigits 10 n.natAbs) [] 0 (areDigits_toDigits _) rfl
  rw [List.append_nil, Numeral.valueOf_toDigits] at hspells
  rw [toString_eq, ← Numeral.ofText?_spelled hspells]
  simp

/-- The steps of a whole number are near its digits. -/
theorem nearDecimal_whole {q : Nat} (h : steps = q * unit) : NearDecimal steps q 0 := by
  have hbelow := @gapBelow_pos steps
  have hgap := gap_pos steps
  unfold NearDecimal
  rw [Int.toNat_zero, Int.neg_zero, Int.toNat_zero, Nat.pow_zero, Nat.mul_one, ← h]
  exact ⟨by omega, by omega, fun _ => ⟨by omega, by omega⟩⟩

theorem of_whole {d : Double} {n : Int} (hwhole : d.isWhole = true) (hn : d.whole? = some n) :
    ∃ negative q hheld, d = finite negative (q * unit) hheld ∧
      n = if negative then -(q : Int) else q := by
  cases d with
  | nan => cases hwhole
  | infinite negative => cases hwhole
  | finite negative steps hheld =>
    have hmod : steps % unit = 0 := by simpa [isWhole] using hwhole
    have hsteps : steps / unit * unit = steps := Nat.div_mul_cancel (Nat.dvd_of_mod_eq_zero hmod)
    refine ⟨negative, steps / unit, hsteps.symm ▸ hheld, ?_, (Option.some.inj hn).symm⟩
    simp only [hsteps]

/-- A whole number is read back from its digits; a zero loses its sign. -/
theorem ofText?_whole {d : Double} {n : Int} (hwhole : d.isWhole = true) (hn : d.whole? = some n) :
    ∃ y, ofText? (toString n) = some y ∧ y.eq d = true := by
  obtain ⟨negative, q, hheld, rfl, hsigned⟩ := of_whole hwhole hn
  refine ⟨_, ofText?_toString n, ?_⟩
  have hvalue : n.natAbs = q := by
    rw [hsigned]
    cases negative <;> simp
  rw [hvalue]
  rcases Nat.eq_zero_or_pos q with rfl | hpos
  · rw [ofDecimal, if_pos rfl, pack_of_held _ held_zero]
    cases negative <;> simp [eq, place?]
  · have hsign : decide (n < 0) = negative := by
      rw [hsigned]
      cases negative <;> simp [hpos]
    rw [hsign, ofDecimal_of_near negative hheld (Nat.mul_pos hpos unit_pos) hpos.ne'
      (nearDecimal_whole rfl)]
    exact eq_self rfl

end Double

end FaultDesk
