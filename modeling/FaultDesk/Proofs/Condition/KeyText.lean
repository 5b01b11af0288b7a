import FaultDesk.Arbitration
import FaultDesk.Proofs.Condition.Order
import FaultDesk.Proofs.Number.ReadBack

/-!
The texts that numbers have in keys. A whole number is written in its digits whatever it was spelled
like, and any other keeps the text it was given. Such a text is read back as the number, so that numbers
with one text are equal; equal numbers have one text when they are whole or were spelled alike.
-/

namespace FaultDesk

namespace Datum

variable {a b v : Datum} {x y : Double}

/-! ## What a value stands for -/

theorem of_number?_truth {b : Bool} (h : (truth b).number? = .ok (some x)) :
    x.isWhole = true ∧ x.whole? = some (if b then 1 else 0) := by
  rw [number?, Except.ok.injEq, Option.some.injEq] at h
  rw [← h]
  cases b <;> decide +kernel

theorem of_number?_int {n : Int} (h : (int n).number? = .ok (some x)) :
    Double.ofInt n = x ∧ x.isWhole = true := by
  rw [number?] at h
  have hwhole := @Double.isWhole_ofInt n
  revert h hwhole
  generalize Double.ofInt n = d
  intro h hwhole
  cases d with
  | infinite negative => cases h
  | nan =>
    cases h
    exact ⟨rfl, hwhole (fun _ => by simp)⟩
  | finite negative steps hheld =>
    cases h
    exact ⟨rfl, hwhole (fun _ => by simp)⟩

theorem of_number?_float {d : Double} (h : (float d).number? = .ok (some x)) : d = x := by
  rw [number?] at h
  split at h <;> cases h
  rfl

theorem of_number?_decimal {d : Decimal} (h : (decimal d).number? = .ok (some x)) :
    d.toDouble? = some x := by
  rw [number?] at h
  split at h
  next => cases h
  next y hy =>
    split at h <;> cases h
    exact hy

theorem of_number?_text {s : String} (h : (text s).number? = .ok (some x)) :
    Double.ofText? s = some x := by
  rw [number?] at h
  split at h
  next y hy =>
    split at h <;> cases h
    exact hy
  next => cases h

/-! ## The text of one number -/

theorem wholeText?_of_whole {n : Int} (hwhole : x.isWhole = true) (hn : x.whole? = some n) :
    wholeText? x = some (toString n) := by
  rw [wholeText?, if_pos hwhole, hn]
  rfl

theorem wholeText?_of_not_whole (h : x.isWhole = false) : wholeText? x = none := by
  rw [wholeText?, h]
  rfl

/-- A value that stands for a whole number is written in its digits. -/
theorem normalText_of_whole (h : v.number? = .ok (some x)) (hwhole : x.isWhole = true) :
    ∃ n, x.whole? = some n ∧ v.normalText = .ok (toString n) := by
  obtain ⟨n, hn⟩ : ∃ n, x.whole? = some n := by
    cases x with
    | finite negative steps hheld => exact ⟨_, rfl⟩
    | nan => cases hwhole
    | infinite negative => cases hwhole
  have htext := wholeText?_of_whole hwhole hn
  refine ⟨n, hn, ?_⟩
  cases v with
  | truth b =>
    rw [(of_number?_truth h).2, Option.some.injEq] at hn
    rw [← hn]
    cases b <;> rfl
  | int m =>
    rw [normalText, (of_number?_int h).1]
    cases x with
    | finite negative steps hheld =>
      show Except.ok ((wholeText? (.finite negative steps hheld)).getD (toString m)) = _
      rw [htext]
      rfl
    | nan => cases hwhole
    | infinite negative => cases hwhole
  | float d =>
    obtain rfl := of_number?_float h
    rw [normalText, htext]
    rfl
  | decimal d =>
    rw [normalText, of_number?_decimal h]
    dsimp only
    rw [htext]
    rfl
  | text s =>
    rw [normalText, normalOfText, Double.ofText?_strip, of_number?_text h, Option.bind_some, htext]
    rfl
  | _ => cases h

/-- A value that stands for another number keeps its text, without the blanks around it, and the text is
read as the number. -/
theorem normalText_of_not_whole (h : v.number? = .ok (some x)) (hbroken : x.isWhole = false) :
    v.normalText = .ok (Text.strip v.shown) ∧ Double.ofText? (Text.strip v.shown) = some x := by
  have hx := isNan_of_number? h
  have hnone := wholeText?_of_not_whole hbroken
  cases v with
  | truth b =>
    rw [(of_number?_truth h).1] at hbroken
    cases hbroken
  | int n =>
    rw [(of_number?_int h).2] at hbroken
    cases hbroken
  | float d =>
    obtain rfl := of_number?_float h
    have hstrip : Text.strip (float d).shown = d.text := Double.strip_text hx
    rw [hstrip, normalText, hnone]
    exact ⟨rfl, Double.ofText?_text hx⟩
  | decimal d =>
    have hd := of_number?_decimal h
    have hstrip : Text.strip (decimal d).shown = d.text := Decimal.strip_text hd hx
    rw [hstrip, normalText, hd]
    dsimp only
    rw [hnone]
    exact ⟨rfl, Decimal.ofText?_text hd hx⟩
  | text s =>
    have hs : Double.ofText? (Text.strip s) = some x := by
      rw [Double.ofText?_strip, of_number?_text h]
    refine ⟨?_, hs⟩
    rw [normalText, normalOfText, hs, Option.bind_some, hnone]
    rfl
  | _ => cases h

/-- The text of a number is read as a number equal to it. -/
theorem ofText?_normalText (h : v.number? = .ok (some x)) :
    ∃ s z, v.normalText = .ok s ∧ Double.ofText? s = some z ∧ z.eq x = true := by
  cases hwhole : x.isWhole with
  | true =>
    obtain ⟨n, hn, htext⟩ := normalText_of_whole h hwhole
    obtain ⟨z, hz, heq⟩ := Double.ofText?_whole hwhole hn
    exact ⟨_, z, htext, hz, heq⟩
  | false =>
    obtain ⟨htext, hread⟩ := normalText_of_not_whole h hwhole
    exact ⟨_, x, htext, hread, Double.eq_self (isNan_of_number? h)⟩

/-! ## The texts of two numbers -/

/-- Two numbers have one text when they are equal and whole, or equal and spelled alike. -/
theorem normalText_eq_iff (ha : a.number? = .ok (some x)) (hb : b.number? = .ok (some y)) :
    a.normalText = b.normalText ↔
      x.eq y = true ∧ (x.isWhole = true ∨ Text.strip a.shown = Text.strip b.shown) := by
  constructor
  · intro hsame
    have heq : x.eq y = true := by
      obtain ⟨s, z, hs, hz, hzx⟩ := ofText?_normalText ha
      obtain ⟨t, w, ht, hw, hwy⟩ := ofText?_normalText hb
      obtain rfl : s = t := by
        rw [hs, ht] at hsame
        exact Except.ok.inj hsame
      obtain rfl : z = w := Option.some.inj (hz.symm.trans hw)
      exact Double.eq_trans (Double.eq_comm x z ▸ hzx) hwy
    refine ⟨heq, ?_⟩
    cases hwhole : x.isWhole with
    | true => exact Or.inl rfl
    | false =>
      have hother : y.isWhole = false := Double.isWhole_of_eq heq ▸ hwhole
      rw [(normalText_of_not_whole ha hwhole).1, (normalText_of_not_whole hb hother).1] at hsame
      exact Or.inr (Except.ok.inj hsame)
  · rintro ⟨heq, hspelled⟩
    have hboth := Double.isWhole_of_eq heq
    cases hwhole : x.isWhole with
    | true =>
      obtain ⟨n, hn, htext⟩ := normalText_of_whole ha hwhole
      obtain ⟨m, hm, htext'⟩ := normalText_of_whole hb (hboth ▸ hwhole)
      obtain rfl : n = m := by
        rw [Double.whole?_of_eq heq, hm] at hn
        exact (Option.some.inj hn).symm
      rw [htext, htext']
    | false =>
      have hshown := hspelled.resolve_left (by simp [hwhole])
      rw [(normalText_of_not_whole ha hwhole).1, (normalText_of_not_whole hb (hboth ▸ hwhole)).1, hshown]

/-- The kinds of values that leave no choice of how a number is spelled. -/
def hasOneSpelling : Datum → Bool
  | .truth _ => true
  | .int _ => true
  | .float _ => true
  | _ => false

theorem shown_of_hasOneSpelling (h : v.number? = .ok (some x)) (hone : v.hasOneSpelling = true)
    (hbroken : x.isWhole = false) : v.shown = x.text := by
  cases v with
  | truth b =>
    rw [(of_number?_truth h).1] at hbroken
    cases hbroken
  | int n =>
    rw [(of_number?_int h).2] at hbroken
    cases hbroken
  | float d =>
    rw [of_number?_float h]
    rfl
  | _ => cases hone

theorem spelled_alike (ha : a.number? = .ok (some x)) (hb : b.number? = .ok (some y))
    (haone : a.hasOneSpelling = true) (hbone : b.hasOneSpelling = true) (heq : x.eq y = true) :
    x.isWhole = true ∨ Text.strip a.shown = Text.strip b.shown := by
  cases hwhole : x.isWhole with
  | true => exact Or.inl rfl
  | false =>
    obtain rfl := Double.same_of_not_whole heq hwhole
    rw [shown_of_hasOneSpelling ha haone hwhole, shown_of_hasOneSpelling hb hbone hwhole]
    exact Or.inr rfl

/-- How equality of numbers and of their texts in keys go together, and which of the two a simple rule, a
master rule and a timer go by. -/
theorem keys_agree (ha : a.number? = .ok (some x)) (hb : b.number? = .ok (some y)) :
    ∃ s t, a.normalText = .ok s ∧ b.normalText = .ok t ∧
      (s = t ↔ Condition.equals.Holds a b ∧
        (x.isWhole = true ∨ Text.strip a.shown = Text.strip b.shown)) ∧
      (a.hasOneSpelling = true → b.hasOneSpelling = true → (s = t ↔ Condition.equals.Holds a b)) ∧
      (∀ r : Rule, r.condition = .equals → r.threshold.datum = b →
        (r.holdsFor a = .ok true ↔ Condition.equals.Holds a b)) ∧
      (∀ r : MasterRule, r.condition = .equals → r.threshold.datum = b →
        r.holdsAt a = .ok (decide (s = t))) ∧
      ∀ unit tag, TimerKey.ofValues unit tag a = TimerKey.ofValues unit tag b ↔ s = t := by
  obtain ⟨s, -, hs, -⟩ := ofText?_normalText ha
  obtain ⟨t, -, ht, -⟩ := ofText?_normalText hb
  have hiff : s = t ↔ x.eq y = true ∧ (x.isWhole = true ∨ Text.strip a.shown = Text.strip b.shown) := by
    rw [← normalText_eq_iff ha hb, hs, ht, Except.ok.injEq]
  have hholds : Condition.equals.Holds a b ↔ x.eq y = true := Condition.holds_of_numbers ha hb
  refine ⟨s, t, hs, ht, ?_, ?_, ?_, ?_, ?_⟩
  · rw [hholds, hiff]
  · intro haone hbone
    rw [hholds, hiff]
    exact and_iff_left_of_imp (spelled_alike ha hb haone hbone)
  · intro r hcondition hthreshold
    rw [Rule.holdsFor, hcondition, hthreshold, Condition.Holds]
  · intro r hcondition hthreshold
    rw [MasterRule.holdsAt, if_pos hcondition, hthreshold, hs, ht]
    rfl
  · intro unit tag
    simp [TimerKey.ofValues, hs, ht, Except.map]

/-- A whole number in a text with blanks and a point has the key of the number itself. -/
theorem keys_agree_on_two :
    (text " 2.0 ").number? = .ok (some (.ofNat 2)) ∧ (int 2).number? = .ok (some (.ofNat 2)) ∧
      (text " 2.0 ").normalText = (int 2).normalText := by
  have htext : (text " 2.0 ").number? = .ok (some (.ofNat 2)) := by decide +kernel
  have hint : (int 2).number? = .ok (some (.ofNat 2)) := by decide +kernel
  obtain ⟨s, t, hs, ht, hiff, -⟩ := keys_agree htext hint
  have hequal : Condition.equals.Holds (text " 2.0 ") (int 2) :=
    (Condition.holds_of_numbers htext hint).mpr (by decide +kernel)
  rw [hs, ht, hiff.mpr ⟨hequal, Or.inl (by decide +kernel)⟩]
  exact ⟨htext, hint, rfl⟩

/-- A fraction that is spelled with a zero behind it has another key than without, and a master rule
tells the two apart where a simple rule does not. -/
theorem keys_apart_on_one_and_a_half :
    (text "1.5").number? = .ok (some (.ofDecimal false 15 (-1))) ∧
      (text "1.50").number? = .ok (some (.ofDecimal false 15 (-1))) ∧
      Condition.equals.Holds (text "1.5") (text "1.50") ∧
      (text "1.5").normalText = .ok "1.5" ∧ (text "1.50").normalText = .ok "1.50" ∧
      ¬ ((text "1.5").normalText = (text "1.50").normalText ↔
        Condition.equals.Holds (text "1.5") (text "1.50")) ∧
      ∀ r : MasterRule, r.condition = .equals → r.threshold = .text "1.50" →
        r.holdsFor (text "1.5") = .ok true ∧ r.holdsAt (text "1.5") = .ok false := by
  have hshort : (text "1.5").number? = .ok (some (.ofDecimal false 15 (-1))) := by decide +kernel
  have hlong : (text "1.50").number? = .ok (some (.ofDecimal false 15 (-1))) := by decide +kernel
  have hequal : Condition.equals.Holds (text "1.5") (text "1.50") :=
    (Condition.holds_of_numbers hshort hlong).mpr (by decide +kernel)
  have hshort' : (text "1.5").normalText = .ok "1.5" := by decide +kernel
  have hlong' : (text "1.50").normalText = .ok "1.50" := by decide +kernel
  have hapart : ¬ (text "1.5").normalText = (text "1.50").normalText := by
    rw [hshort', hlong']
    decide
  refine ⟨hshort, hlong, hequal, hshort', hlong', fun h => hapart (h.mpr hequal), ?_⟩
  intro r hcondition hthreshold
  have hdatum : r.threshold.datum = text "1.50" := by rw [hthreshold, Threshold.datum]
  constructor
  · rw [Rule.holdsFor, hcondition, hdatum]
    exact hequal
  · rw [MasterRule.holdsAt, if_pos hcondition, hdatum, hshort', hlong']
    decide

end Datum

end FaultDesk
