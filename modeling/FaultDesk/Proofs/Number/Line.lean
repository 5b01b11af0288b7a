import FaultDesk.Number.Double

/-!
Numbers on a line. Every number but NaN has a place, and numbers compare as their places do.
-/

namespace FaultDesk

namespace Double

variable {a b : Double} {p q : Int × Int}

theorem exists_place (h : a.isNan = false) : ∃ p, a.place? = some p := by
  cases a with
  | nan => cases h
  | infinite n => cases n <;> exact ⟨_, rfl⟩
  | finite n s held => exact ⟨_, rfl⟩

theorem lt_iff (ha : a.place? = some p) (hb : b.place? = some q) :
    a.lt b = true ↔ p.1 < q.1 ∨ p.1 = q.1 ∧ p.2 < q.2 := by
  simp [lt, ha, hb]

theorem eq_iff (ha : a.place? = some p) (hb : b.place? = some q) : a.eq b = true ↔ p = q := by
  simp [eq, ha, hb]

theorem eq_self (h : a.isNan = false) : a.eq a = true := by
  obtain ⟨p, hp⟩ := exists_place h
  rw [eq_iff hp hp]

theorem le_iff (ha : a.place? = some p) (hb : b.place? = some q) :
    a.le b = true ↔ p.1 < q.1 ∨ p.1 = q.1 ∧ p.2 ≤ q.2 := by
  rw [le, Bool.or_eq_true, lt_iff ha hb, eq_iff ha hb, Prod.ext_iff]
  omega

/-- Of two numbers that can be compared, one that is not below the other is at least as great. -/
theorem le_of_lt_eq_false (ha : a.isNan = false) (hb : b.isNan = false) (h : a.lt b = false) :
    b.le a = true := by
  obtain ⟨p, hp⟩ := exists_place ha
  obtain ⟨q, hq⟩ := exists_place hb
  have hnot : ¬ (p.1 < q.1 ∨ p.1 = q.1 ∧ p.2 < q.2) := by
    rw [← lt_iff hp hq, h]
    decide
  rw [le_iff hq hp]
  omega

theorem places_of_le (h : a.le b = true) : ∃ p q, a.place? = some p ∧ b.place? = some q := by
  unfold le lt eq at h
  cases ha : a.place? with
  | none => simp [ha] at h
  | some p =>
    cases hb : b.place? with
    | none => simp [ha, hb] at h
    | some q => exact ⟨p, q, rfl, rfl⟩

theorem le_of_le_of_le {c : Double} (hab : a.le b = true) (hbc : b.le c = true) : a.le c = true := by
  obtain ⟨p, q, hp, hq⟩ := places_of_le hab
  obtain ⟨-, r, -, hr⟩ := places_of_le hbc
  rw [le_iff hp hq] at hab
  rw [le_iff hq hr] at hbc
  rw [le_iff hp hr]
  omega

theorem lt_eq_false_of_le (h : a.le b = true) : b.lt a = false := by
  obtain ⟨p, q, hp, hq⟩ := places_of_le h
  rw [le_iff hp hq] at h
  refine eq_false_of_ne_true fun hlt => ?_
  rw [lt_iff hq hp] at hlt
  omega

theorem le_of_lt_eq_true (h : a.lt b = true) : a.le b = true := by
  unfold le
  rw [h]
  rfl

theorem le_self (h : a.isNan = false) : a.le a = true := by
  unfold le
  rw [eq_self h, Bool.or_true]

theorem isNan_of_le (h : a.le b = true) : b.isNan = false := by
  cases b with
  | nan => cases a <;> simp [le, lt, eq, place?] at h
  | infinite n => rfl
  | finite n s hs => rfl

theorem isNan_pack (negative : Bool) (steps : Nat) : (pack negative steps).isNan = false := by
  unfold pack
  split <;> rfl

theorem isNan_ofRatio (negative : Bool) (num den : Nat) : (ofRatio negative num den).isNan = false :=
  isNan_pack ..

theorem isNan_ofNat (n : Nat) : (ofNat n).isNan = false := by
  unfold ofNat
  exact isNan_ofRatio ..

theorem isNan_ofInt (n : Int) : (ofInt n).isNan = false := by
  unfold ofInt
  exact isNan_ofRatio ..

theorem isNan_ofDecimal (negative : Bool) (digits : Nat) (exponent : Int) :
    (ofDecimal negative digits exponent).isNan = false := by
  unfold ofDecimal
  dsimp only
  split
  next => exact isNan_pack ..
  next =>
    split
    next => rfl
    next =>
      split
      next => exact isNan_pack ..
      next => split <;> exact isNan_ofRatio ..

/-! ## Equal numbers -/

theorem eq_trans {c : Double} (hab : a.eq b = true) (hbc : b.eq c = true) : a.eq c = true := by
  unfold eq at *
  cases ha : a.place? <;> cases hb : b.place? <;> cases hc : c.place? <;> simp_all

/-- Equal numbers are the same, or zeros of either sign. -/
theorem same_of_eq (h : a.eq b = true) :
    a = b ∨ (∃ n, a = .finite n 0 held_zero) ∧ ∃ m, b = .finite m 0 held_zero := by
  cases a with
  | nan => cases h
  | infinite n =>
    cases b with
    | nan => cases n <;> cases h
    | infinite m => cases n <;> cases m <;> first | exact Or.inl rfl | cases h
    | finite m t ht => cases n <;> simp [eq, place?] at h
  | finite n s hs =>
    cases b with
    | nan => cases h
    | infinite m => cases m <;> simp [eq, place?] at h
    | finite m t ht =>
      rw [eq_iff rfl rfl, Prod.mk.injEq] at h
      have hsigned := h.2
      have hcases : s = t ∧ (n = m ∨ s = 0) := by
        cases n <;> cases m <;> simp only [reduceIte, Bool.false_eq_true] at hsigned <;> simp <;> omega
      obtain ⟨rfl, rfl | rfl⟩ := hcases
      · exact Or.inl rfl
      · exact Or.inr ⟨⟨n, rfl⟩, ⟨m, rfl⟩⟩

theorem isWhole_zero (n : Bool) : (finite n 0 held_zero).isWhole = true := by
  simp [isWhole]

theorem whole?_zero (n : Bool) : (finite n 0 held_zero).whole? = some 0 := by
  cases n <;> simp [whole?]

/-- Equal numbers are both whole or neither is. -/
theorem isWhole_of_eq (h : a.eq b = true) : a.isWhole = b.isWhole := by
  rcases same_of_eq h with rfl | ⟨⟨n, rfl⟩, m, rfl⟩
  · rfl
  · rw [isWhole_zero, isWhole_zero]

theorem whole?_of_eq (h : a.eq b = true) : a.whole? = b.whole? := by
  rcases same_of_eq h with rfl | ⟨⟨n, rfl⟩, m, rfl⟩
  · rfl
  · rw [whole?_zero, whole?_zero]

/-- Equal numbers that are not whole are the same. -/
theorem same_of_not_whole (h : a.eq b = true) (hbroken : a.isWhole = false) : a = b := by
  rcases same_of_eq h with rfl | ⟨⟨n, rfl⟩, -⟩
  · rfl
  · rw [isWhole_zero] at hbroken
    cases hbroken

end Double

end FaultDesk
