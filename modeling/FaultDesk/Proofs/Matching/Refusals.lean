import FaultDesk.Condition
import FaultDesk.Datum.Normal
import FaultDesk.Proofs.Number.Overflow

/-!
When a comparison has no answer, and why. A whole number too large for binary64 and a signaling NaN stand
for no number; a container with a whole number of too many digits has no text; and a condition given as a
value that cannot be a key is not looked up. Everything else is answered.
-/

namespace FaultDesk

/-! ## Values -/

namespace Datum

/-- A value that stands neither for a number nor for a text, and why. -/
inductive Unreadable : Datum → Failure → Prop
  | whole {n : Int} {negative : Bool} (h : Double.ofInt n = .infinite negative) :
      Unreadable (.int n) .wholeTooLarge
  | decimal {d : Decimal} (h : d.toDouble? = none) : Unreadable (.decimal d) .signalingNan

/-- Nothing stands against a value. -/
def Readable (v : Datum) : Prop := ∀ e, ¬ v.Unreadable e

/-- A container that holds a whole number of too many digits has no text. -/
def Unwritable (v : Datum) : Prop := (∀ n, v ≠ .int n) ∧ v.hasLongWhole = true

variable {v : Datum} {e : Failure}

theorem unreadable_int_iff {n : Int} :
    (Datum.int n).Unreadable e ↔
      (∃ negative, Double.ofInt n = .infinite negative) ∧ e = .wholeTooLarge := by
  constructor
  · intro h
    cases h with
    | whole h => exact ⟨⟨_, h⟩, rfl⟩
  · rintro ⟨⟨negative, h⟩, rfl⟩
    exact .whole h

theorem unreadable_decimal_iff {d : Decimal} :
    (Datum.decimal d).Unreadable e ↔ d.toDouble? = none ∧ e = .signalingNan := by
  constructor
  · intro h
    cases h with
    | decimal h => exact ⟨h, rfl⟩
  · rintro ⟨h, rfl⟩
    exact .decimal h

/-- The values that are too large for binary64 begin at `2 ^ 1024 - 2 ^ 970`. -/
theorem unreadable_iff :
    v.Unreadable e ↔
      (∃ n, v = .int n ∧ (2 ^ 54 - 1) * 2 ^ 970 ≤ n.natAbs ∧ e = .wholeTooLarge) ∨
        ∃ negative payload, v = .decimal (.nan negative true payload) ∧ e = .signalingNan := by
  constructor
  · intro h
    cases h with
    | whole h => exact Or.inl ⟨_, rfl, (Double.ofInt_infinite_iff.mp h).2, rfl⟩
    | @decimal d h =>
      unfold Decimal.toDouble? at h
      split at h
      next => cases h
      next => cases h
      next => cases h
      next => exact Or.inr ⟨_, _, rfl, rfl⟩
  · rintro (⟨n, rfl, h, rfl⟩ | ⟨negative, payload, rfl, rfl⟩)
    · exact .whole (Double.ofInt_infinite_iff.mpr ⟨rfl, h⟩)
    · exact .decimal rfl

theorem number?_error_iff : v.number? = .error e ↔ v.Unreadable e := by
  cases v with
  | int n =>
    rw [unreadable_int_iff, number?]
    cases Double.ofInt n <;> simp [numberOfWhole, @eq_comm _ e]
  | decimal d =>
    rw [unreadable_decimal_iff, number?]
    cases d.toDouble? <;> simp [@eq_comm _ e]
  | text s =>
    have hnone : ¬ (Datum.text s).Unreadable e := by rintro ⟨⟩
    simp only [hnone, iff_false, number?]
    split <;> simp
  | _ =>
    constructor
    · intro h
      cases h
    · rintro ⟨⟩

theorem readable_of_number? {a : Option Double} (h : v.number? = .ok a) : v.Readable := by
  intro e hunreadable
  rw [number?_error_iff.mpr hunreadable] at h
  cases h

theorem Unreadable.unique {e' : Failure} (h : v.Unreadable e) (h' : v.Unreadable e') : e = e' :=
  Except.error.inj ((number?_error_iff.mpr h).symm.trans (number?_error_iff.mpr h'))

theorem written_error_iff : v.written = .error e ↔ v.hasLongWhole = true ∧ e = .tooManyDigits := by
  unfold written
  split
  next h => simp [h, @eq_comm _ e]
  next h => simp [h]

theorem shown_of_written {text : String} (h : v.written = .ok text) : v.shown = text := by
  unfold written at h
  split at h
  next => cases h
  next => exact Except.ok.inj h

theorem readable_of_unwritable (h : v.Unwritable) : v.Readable := by
  intro e hunreadable
  cases hunreadable with
  | whole => exact h.1 _ rfl
  | decimal => cases h.2

theorem normalText_error_iff :
    v.normalText = .error e ↔ v.Unreadable e ∨ v.Unwritable ∧ e = .tooManyDigits := by
  cases v with
  | int n =>
    have hwritable : ¬ (Datum.int n).Unwritable := fun h => h.1 n rfl
    rw [unreadable_int_iff, normalText]
    simp only [hwritable, false_and, or_false]
    cases Double.ofInt n <;> simp [normalOfWhole, @eq_comm _ e]
  | decimal d =>
    have hwritable : ¬ (Datum.decimal d).Unwritable := fun h => absurd h.2 (by simp [hasLongWhole])
    rw [unreadable_decimal_iff, normalText]
    simp only [hwritable, false_and, or_false]
    cases d.toDouble? <;> simp [@eq_comm _ e]
  | truth _ | float _ | text _ =>
    simp only [normalText, reduceCtorEq, false_iff, not_or, not_and]
    exact ⟨by rintro ⟨⟩, fun h => absurd h.2 (by simp [hasLongWhole])⟩
  | _ =>
    simp only [normalText, written_error_iff, Unwritable, reduceCtorEq, ne_eq, not_false_eq_true,
      implies_true, true_and]
    refine (or_iff_right ?_).symm
    rintro ⟨⟩

/-- A whole number of too many digits is too large for binary64 in the first place. -/
theorem Readable.unwritable (hv : v.Readable) (hlong : v.hasLongWhole = true) : v.Unwritable := by
  refine ⟨?_, hlong⟩
  rintro n rfl
  rw [hasLongWhole, decide_eq_true_iff] at hlong
  have hlarge : (2 ^ 54 - 1) * 2 ^ 970 ≤ Nat.pow 10 Whole.digitLimit := by decide +kernel
  have hinfinite := Double.ofInt_infinite_iff.mpr ⟨rfl, hlarge.trans hlong⟩
  exact hv _ (.whole hinfinite)

theorem Unwritable.number? (h : v.Unwritable) : v.number? = .ok none := by
  obtain ⟨hint, hlong⟩ := h
  cases v with
  | int n => exact absurd rfl (hint n)
  | truth _ | float _ | decimal _ | text _ => cases hlong
  | _ => rfl

end Datum

/-! ## Conditions -/

namespace Condition

variable {c : Condition} {actual threshold condition : Datum} {e : Failure}

/-- Why a comparison of two values has no answer. -/
inductive Fails (c : Condition) (actual threshold : Datum) : Failure → Prop
  | actual {e : Failure} (h : actual.Unreadable e) : Fails c actual threshold e
  | threshold {e : Failure} (sound : actual.Readable) (h : threshold.Unreadable e) :
      Fails c actual threshold e
  /-- The texts decide, and one of the values has none. -/
  | texts (compares : c = .equals ∨ c = .neq) (sound : actual.Readable) (sound' : threshold.Readable)
      (h : actual.Unwritable ∨ threshold.Unwritable) : Fails c actual threshold .tooManyDigits

theorem compareTexts_error_iff :
    c.compareTexts actual threshold = .error e ↔
      (c = .equals ∨ c = .neq) ∧ (actual.hasLongWhole = true ∨ threshold.hasLongWhole = true) ∧
        e = .tooManyDigits := by
  cases ha : actual.hasLongWhole <;> cases ht : threshold.hasLongWhole <;> cases c <;>
    simp [compareTexts, Datum.written, ha, ht, bind, Except.bind, pure, Except.pure, @eq_comm _ e]

theorem fails_of_actual {e' : Failure} (h : actual.Unreadable e') :
    c.Fails actual threshold e ↔ e' = e := by
  constructor
  · intro hfails
    cases hfails with
    | actual h' => exact h.unique h'
    | threshold sound => exact absurd h (sound e')
    | texts _ sound => exact absurd h (sound e')
  · rintro rfl
    exact .actual h

theorem fails_of_threshold {e' : Failure} (hsound : actual.Readable) (h : threshold.Unreadable e') :
    c.Fails actual threshold e ↔ e' = e := by
  constructor
  · intro hfails
    cases hfails with
    | actual h' => exact absurd h' (hsound e)
    | threshold _ h' => exact h.unique h'
    | texts _ _ sound' => exact absurd h (sound' e')
  · rintro rfl
    exact .threshold hsound h

/-- Between values that can be read only the comparison of their texts can fail. -/
theorem fails_of_readable (hsound : actual.Readable) (hsound' : threshold.Readable) :
    c.Fails actual threshold e ↔ c.compareTexts actual threshold = .error e := by
  rw [compareTexts_error_iff]
  constructor
  · intro hfails
    cases hfails with
    | actual h => exact absurd h (hsound e)
    | threshold _ h => exact absurd h (hsound' e)
    | texts compares _ _ h => exact ⟨compares, h.imp And.right And.right, rfl⟩
  · rintro ⟨compares, hlong, rfl⟩
    exact .texts compares hsound hsound' (hlong.imp hsound.unwritable hsound'.unwritable)

/-- Neither of two numbers is a container. -/
theorem not_fails_of_numbers {x y : Double} (ha : actual.number? = .ok (some x))
    (ht : threshold.number? = .ok (some y)) : ¬ c.Fails actual threshold e := by
  intro hfails
  cases hfails with
  | actual h => exact Datum.readable_of_number? ha e h
  | threshold _ h => exact Datum.readable_of_number? ht e h
  | texts _ _ _ h =>
    rcases h with h | h
    · cases h.number?.symm.trans ha
    · cases h.number?.symm.trans ht

theorem eval_error_iff : c.eval actual threshold = .error e ↔ c.Fails actual threshold e := by
  unfold eval
  cases ha : actual.number? with
  | error e' =>
    rw [fails_of_actual (Datum.number?_error_iff.mp ha)]
    exact ⟨fun h => Except.error.inj h, fun h => congrArg Except.error h⟩
  | ok a =>
    have hsound := Datum.readable_of_number? ha
    cases ht : threshold.number? with
    | error e' =>
      rw [fails_of_threshold hsound (Datum.number?_error_iff.mp ht)]
      exact ⟨fun h => Except.error.inj h, fun h => congrArg Except.error h⟩
    | ok t =>
      have htexts := fails_of_readable (c := c) (e := e) hsound (Datum.readable_of_number? ht)
      cases a with
      | none => exact htexts.symm
      | some x =>
        cases t with
        | none => exact htexts.symm
        | some y =>
          simp only [not_fails_of_numbers ha ht, iff_false]
          rintro ⟨⟩

theorem named?_eq_some_iff : named? condition = some c ↔ condition = .text c.name := by
  constructor
  · intro h
    unfold named? at h
    split at h
    next s =>
      have hname := List.find?_some h
      rw [beq_iff_eq] at hname
      rw [hname]
    next => cases h
  · rintro rfl
    exact ofName?_name c

/-- An evaluation has no answer exactly if the condition cannot be looked up, or names a comparison
that fails for the two values. -/
theorem evalNamed_error_iff :
    evalNamed condition actual threshold = .error e ↔
      condition.isKey = false ∧ e = .notAKey ∨
        ∃ c : Condition, condition = .text c.name ∧ c.Fails actual threshold e := by
  unfold evalNamed
  split
  next hkey =>
    simp only [hkey, Bool.true_eq_false, false_and, false_or, ← named?_eq_some_iff]
    cases hc : named? condition with
    | none => simp
    | some c => simp [eval_error_iff]
  next hkey =>
    have hno : condition.isKey = false := Bool.eq_false_iff.mpr hkey
    have htext : ¬ ∃ c : Condition, condition = .text c.name ∧ c.Fails actual threshold e := by
      rintro ⟨c, rfl, -⟩
      exact hkey rfl
    simp [hno, htext, @eq_comm _ e]

/-- A whole number too large for binary64, a signaling NaN and a condition that cannot be a key. -/
theorem evalNamed_unanswered :
    evalNamed (.text "gt") (.int (Int.pow 10 400)) (.int 5) = .error .wholeTooLarge ∧
      evalNamed (.text "equals") (.decimal (.nan false true 0)) (.int 5) = .error .signalingNan ∧
        evalNamed (.list [.text "gt"]) (.int 1) (.int 5) = .error .notAKey := by
  decide +kernel

end Condition

end FaultDesk
