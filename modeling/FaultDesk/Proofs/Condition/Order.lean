import FaultDesk.Proofs.Matching.Refusals
import FaultDesk.Proofs.Number.Line

/-!
The order that conditions make of values. Of two values that stand for numbers exactly one is below the
other or both are equal, and the conditions say which. Where a value stands for no number nothing is
below or above, and only the texts are compared.
-/

namespace FaultDesk

namespace Datum

theorem isNan_of_numberOfWhole {d x : Double} (hd : d.isNan = false)
    (h : numberOfWhole d = .ok (some x)) : x.isNan = false := by
  cases d with
  | nan => cases hd
  | infinite n => cases h
  | finite n s held =>
    cases h
    rfl

/-- No value stands for NaN. -/
theorem isNan_of_number? {v : Datum} {x : Double} (h : v.number? = .ok (some x)) :
    x.isNan = false := by
  cases v with
  | truth b =>
    simp only [number?, Except.ok.injEq, Option.some.injEq] at h
    rw [← h]
    cases b
    · exact Double.isNan_ofNat 0
    · exact Double.isNan_ofNat 1
  | int n =>
    rw [number?] at h
    exact isNan_of_numberOfWhole (Double.isNan_ofInt n) h
  | float d =>
    simp only [number?] at h
    cases hd : d.isNan <;> simp_all
  | decimal d =>
    simp only [number?] at h
    split at h
    next => cases h
    next y _ => cases hy : y.isNan <;> simp_all
  | text s =>
    simp only [number?] at h
    split at h
    next y _ => cases hy : y.isNan <;> simp_all
    next => cases h
  | _ => cases h

end Datum

namespace Condition

/-- A comparison of two values comes out true. -/
def Holds (c : Condition) (actual threshold : Datum) : Prop := c.eval actual threshold = .ok true

/-- How two values compare that stand for numbers. -/
structure Ordered (a t : Datum) : Prop where
  answered : ∀ c : Condition, ∃ b, c.eval a t = .ok b
  exactly_one :
    (lt.Holds a t ∧ ¬ equals.Holds a t ∧ ¬ gt.Holds a t) ∨
    (¬ lt.Holds a t ∧ equals.Holds a t ∧ ¬ gt.Holds a t) ∨
    (¬ lt.Holds a t ∧ ¬ equals.Holds a t ∧ gt.Holds a t)
  gte_iff : gte.Holds a t ↔ gt.Holds a t ∨ equals.Holds a t
  lte_iff : lte.Holds a t ↔ lt.Holds a t ∨ equals.Holds a t
  gt_mirrored : gt.eval a t = lt.eval t a
  lt_mirrored : lt.eval a t = gt.eval t a
  gte_mirrored : gte.eval a t = lte.eval t a
  lte_mirrored : lte.eval a t = gte.eval t a
  equals_mirrored : equals.eval a t = equals.eval t a
  neq_mirrored : neq.eval a t = neq.eval t a
  lt_trans : ∀ b z, b.number? = .ok (some z) → lt.Holds a t → lt.Holds t b → lt.Holds a b
  gte_trans : ∀ b z, b.number? = .ok (some z) → gte.Holds a t → gte.Holds t b → gte.Holds a b

/-- How two values compare of which one stands for no number. -/
structure Unordered (a t : Datum) : Prop where
  never : ∀ c : Condition, c ≠ equals → c ≠ neq → c.eval a t = .ok false
  equals_iff : equals.Holds a t ↔ ∃ s, a.written = .ok s ∧ t.written = .ok s
  neq_iff : neq.Holds a t ↔ ∃ s u, a.written = .ok s ∧ t.written = .ok u ∧ s ≠ u
  fails_iff : ∀ e, equals.eval a t = .error e ↔
    a.written = .error e ∨ (∃ s, a.written = .ok s) ∧ t.written = .error e

variable {c : Condition} {a t b : Datum} {x y z : Double}

/-! ## Two numbers -/

theorem eval_of_numbers (ha : a.number? = .ok (some x)) (ht : t.number? = .ok (some y)) :
    c.eval a t = .ok (c.compare x y) := by
  simp [eval, ha, ht, bind, Except.bind, pure, Except.pure]

theorem holds_of_numbers (ha : a.number? = .ok (some x)) (ht : t.number? = .ok (some y)) :
    c.Holds a t ↔ c.compare x y = true := by
  rw [Holds, eval_of_numbers ha ht, Except.ok.injEq]

theorem lt_trans_of_numbers (ha : a.number? = .ok (some x)) (ht : t.number? = .ok (some y))
    (hb : b.number? = .ok (some z)) (hat : lt.Holds a t) (htb : lt.Holds t b) : lt.Holds a b := by
  obtain ⟨p, hp⟩ := Double.exists_place (Datum.isNan_of_number? ha)
  obtain ⟨q, hq⟩ := Double.exists_place (Datum.isNan_of_number? ht)
  obtain ⟨r, hr⟩ := Double.exists_place (Datum.isNan_of_number? hb)
  rw [holds_of_numbers ha ht, compare, Double.lt_iff hp hq] at hat
  rw [holds_of_numbers ht hb, compare, Double.lt_iff hq hr] at htb
  rw [holds_of_numbers ha hb, compare, Double.lt_iff hp hr]
  omega

theorem gte_trans_of_numbers (ha : a.number? = .ok (some x)) (ht : t.number? = .ok (some y))
    (hb : b.number? = .ok (some z)) (hat : gte.Holds a t) (htb : gte.Holds t b) : gte.Holds a b := by
  obtain ⟨p, hp⟩ := Double.exists_place (Datum.isNan_of_number? ha)
  obtain ⟨q, hq⟩ := Double.exists_place (Datum.isNan_of_number? ht)
  obtain ⟨r, hr⟩ := Double.exists_place (Datum.isNan_of_number? hb)
  rw [holds_of_numbers ha ht, compare, Double.le_iff hq hp] at hat
  rw [holds_of_numbers ht hb, compare, Double.le_iff hr hq] at htb
  rw [holds_of_numbers ha hb, compare, Double.le_iff hr hp]
  omega

theorem ordered_of_numbers (ha : a.number? = .ok (some x)) (ht : t.number? = .ok (some y)) :
    Ordered a t := by
  obtain ⟨p, hp⟩ := Double.exists_place (Datum.isNan_of_number? ha)
  obtain ⟨q, hq⟩ := Double.exists_place (Datum.isNan_of_number? ht)
  have hlt : lt.Holds a t ↔ p.1 < q.1 ∨ p.1 = q.1 ∧ p.2 < q.2 := by
    rw [holds_of_numbers ha ht, compare, Double.lt_iff hp hq]
  have hgt : gt.Holds a t ↔ q.1 < p.1 ∨ q.1 = p.1 ∧ q.2 < p.2 := by
    rw [holds_of_numbers ha ht, compare, Double.lt_iff hq hp]
  have hlte : lte.Holds a t ↔ p.1 < q.1 ∨ p.1 = q.1 ∧ p.2 ≤ q.2 := by
    rw [holds_of_numbers ha ht, compare, Double.le_iff hp hq]
  have hgte : gte.Holds a t ↔ q.1 < p.1 ∨ q.1 = p.1 ∧ q.2 ≤ p.2 := by
    rw [holds_of_numbers ha ht, compare, Double.le_iff hq hp]
  have hequals : equals.Holds a t ↔ p.1 = q.1 ∧ p.2 = q.2 := by
    rw [holds_of_numbers ha ht, compare, Double.eq_iff hp hq, Prod.ext_iff]
  have hmirrored {c c' : Condition} (h : c.compare x y = c'.compare y x) : c.eval a t = c'.eval t a := by
    rw [eval_of_numbers ha ht, eval_of_numbers ht ha, h]
  exact
    { answered := fun c => ⟨_, eval_of_numbers ha ht⟩
      exactly_one := by
        rw [hlt, hgt, hequals]
        omega
      gte_iff := by
        rw [hgte, hgt, hequals]
        omega
      lte_iff := by
        rw [hlte, hlt, hequals]
        omega
      gt_mirrored := hmirrored rfl
      lt_mirrored := hmirrored rfl
      gte_mirrored := hmirrored rfl
      lte_mirrored := hmirrored rfl
      equals_mirrored := hmirrored (Double.eq_comm x y)
      neq_mirrored := hmirrored (congrArg (!·) (Double.eq_comm x y))
      lt_trans := fun b z hb => lt_trans_of_numbers ha ht hb
      gte_trans := fun b z hb => gte_trans_of_numbers ha ht hb }

/-! ## Two texts -/

theorem eval_of_texts {x y : Option Double} (ha : a.number? = .ok x) (ht : t.number? = .ok y)
    (hnone : x = none ∨ y = none) : c.eval a t = c.compareTexts a t := by
  rcases hnone with rfl | rfl
  · simp [eval, ha, ht, bind, Except.bind]
  · cases x <;> simp [eval, ha, ht, bind, Except.bind]

theorem compareTexts_neq : neq.compareTexts a t = (equals.compareTexts a t).map (!·) := by
  simp only [compareTexts]
  cases a.written with
  | error e => rfl
  | ok s => cases t.written <;> rfl

theorem unordered_of_none {x y : Option Double} (ha : a.number? = .ok x) (ht : t.number? = .ok y)
    (hnone : x = none ∨ y = none) : Unordered a t := by
  have htexts (c : Condition) : c.eval a t = c.compareTexts a t := eval_of_texts ha ht hnone
  refine ⟨?_, ?_, ?_, ?_⟩
  · intro c hequals hneq
    rw [htexts]
    cases c <;> first | rfl | contradiction
  · rw [Holds, htexts, compareTexts]
    cases a.written with
    | error e => simp [bind, Except.bind]
    | ok s => cases t.written <;> simp [bind, Except.bind, pure, Except.pure, @eq_comm _ s]
  · rw [Holds, htexts, compareTexts]
    cases a.written with
    | error e => simp [bind, Except.bind]
    | ok s => cases t.written <;> simp [bind, Except.bind, pure, Except.pure]
  · intro e
    rw [htexts, compareTexts]
    cases a.written with
    | error e' => simp [bind, Except.bind]
    | ok s => cases t.written <;> simp [bind, Except.bind, pure, Except.pure]

/-- What conditions say of two values of which neither is refused: `neq` denies `equals`, numbers stand in
a strict order, and what is no number is in no order and compared by its text. -/
theorem order_laws {x y : Option Double} (ha : a.number? = .ok x) (ht : t.number? = .ok y) :
    (∀ c : Condition, evalNamed (.text c.name) a t = c.eval a t) ∧
      neq.eval a t = (equals.eval a t).map (!·) ∧
      (x.isSome = true → y.isSome = true → Ordered a t) ∧
      (x = none ∨ y = none → Unordered a t) := by
  refine ⟨?_, ?_, ?_, unordered_of_none ha ht⟩
  · intro c
    have hname : named? (.text c.name) = some c := named?_eq_some_iff.mpr rfl
    simp [evalNamed, hname, Datum.isKey]
  · by_cases hnone : x = none ∨ y = none
    · rw [eval_of_texts ha ht hnone, eval_of_texts ha ht hnone, compareTexts_neq]
    · obtain ⟨hx, hy⟩ := not_or.mp hnone
      obtain ⟨x, rfl⟩ := Option.ne_none_iff_exists'.mp hx
      obtain ⟨y, rfl⟩ := Option.ne_none_iff_exists'.mp hy
      rw [eval_of_numbers ha ht, eval_of_numbers ha ht]
      rfl
  · intro hx hy
    obtain ⟨x, rfl⟩ := Option.isSome_iff_exists.mp hx
    obtain ⟨y, rfl⟩ := Option.isSome_iff_exists.mp hy
    exact ordered_of_numbers ha ht

/-- A text with blanks around it is ordered with a decimal, and a word is not. -/
theorem order_laws_mixed :
    (Datum.text " 2 ").number? = .ok (some (.ofNat 2)) ∧
      (Datum.decimal (.finite false 30 (-1))).number? = .ok (some (.ofNat 3)) ∧
      (Datum.text "OPEN").number? = .ok none ∧
      Ordered (.text " 2 ") (.decimal (.finite false 30 (-1))) ∧
      Unordered (.text "OPEN") (.decimal (.finite false 30 (-1))) := by
  have htwo : (Datum.text " 2 ").number? = .ok (some (.ofNat 2)) := by decide +kernel
  have hthree : (Datum.decimal (.finite false 30 (-1))).number? = .ok (some (.ofNat 3)) := by
    decide +kernel
  have hword : (Datum.text "OPEN").number? = .ok none := by decide +kernel
  obtain ⟨-, -, hordered, -⟩ := order_laws htwo hthree
  obtain ⟨-, -, -, hunordered⟩ := order_laws hword hthree
  exact ⟨htwo, hthree, hword, hordered rfl rfl, hunordered (Or.inl rfl)⟩

end Condition

end FaultDesk
