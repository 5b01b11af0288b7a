import Mathlib.Data.String.Basic
import Mathlib.Tactic.IntervalCases
import FaultDesk.Number.Whole

/-!
Written whole numbers. Zeros in front do not change a value, numerals of one length stand in order of
their values, and a run of ASCII digits is read back as its value.
-/

namespace FaultDesk

/-! ## Digits -/

/-- Whether characters are ASCII digits, at least one of them. -/
def AreDigits (cs : List Char) : Prop := cs ≠ [] ∧ ∀ c ∈ cs, c.isDigit = true

instance (cs : List Char) : Decidable (AreDigits cs) :=
  decidable_of_iff (cs ≠ [] ∧ cs.all Char.isDigit = true) (by simp [AreDigits])

theorem mem_figures_of_isDigit {c : Char} (h : c.isDigit = true) : c ∈ "0123456789".toList := by
  have hrange : 48 ≤ c.toNat ∧ c.toNat ≤ 57 := by
    simpa [Char.isDigit, UInt32.le_iff_toNat_le] using h
  have hc : c = Char.ofNat c.toNat := by simp
  rw [hc]
  generalize c.toNat = n at hrange
  obtain ⟨hlow, hhigh⟩ := hrange
  interval_cases n <;> decide

/-- What holds of the ten digits holds of every digit. -/
theorem forall_digit {p : Char → Bool} (h : "0123456789".toList.all p = true) {c : Char}
    (hc : c.isDigit = true) : p c = true :=
  List.all_eq_true.mp h c (mem_figures_of_isDigit hc)

theorem toNat_of_isDigit {c : Char} (h : c.isDigit = true) : 48 ≤ c.toNat ∧ c.toNat ≤ 57 :=
  of_decide_eq_true (@forall_digit (fun c => decide (48 ≤ c.toNat ∧ c.toNat ≤ 57)) (by decide) c h)

theorem isBlank_of_isDigit {c : Char} (h : c.isDigit = true) : isBlank c = false := by
  simpa using @forall_digit (fun c => !isBlank c) (by decide) c h

theorem decimalValue?_of_isDigit {c : Char} (h : c.isDigit = true) :
    (decimalValue? c).map (fun v => Char.ofNat (48 + v)) = some c :=
  of_decide_eq_true (@forall_digit
    (fun c => decide ((decimalValue? c).map (fun v => Char.ofNat (48 + v)) = some c))
    (by decide) c h)

theorem isDecimal_of_isDigit {c : Char} (h : c.isDigit = true) : isDecimal c = true :=
  @forall_digit isDecimal (by decide) c h

theorem isDigit_of_mem_toDigits {n : Nat} {c : Char} (h : c ∈ Nat.toDigits 10 n) :
    c.isDigit = true :=
  Nat.isDigit_of_mem_toDigits (by decide) (by decide) h

theorem isDigit_of_mem_zeros {k : Nat} {c : Char} (h : c ∈ List.replicate k '0') :
    c.isDigit = true := by
  rw [(List.mem_replicate.mp h).2]
  rfl

theorem areDigits_toDigits (n : Nat) : AreDigits (Nat.toDigits 10 n) :=
  ⟨List.length_pos_iff.mp Nat.length_toDigits_pos, fun _ hc => isDigit_of_mem_toDigits hc⟩

theorem lt_pow_length_toDigits (n : Nat) : n < 10 ^ (Nat.toDigits 10 n).length :=
  (Nat.length_toDigits_le_iff (by decide) Nat.length_toDigits_pos).mp le_rfl

theorem pow_le_of_length_toDigits {n k : Nat} (hpos : 0 < n)
    (h : k < (Nat.toDigits 10 n).length) : 10 ^ k ≤ n := by
  rcases Nat.eq_zero_or_pos k with rfl | hk
  · exact hpos
  · by_contra hless
    have := (Nat.length_toDigits_le_iff (b := 10) (by decide) hk).mpr (Nat.not_le.mp hless)
    omega

theorem Text.allFigures_of_digits {cs : List Char} (h : AreDigits cs) :
    Text.allFigures (String.ofList cs) = true := by
  have hall : cs.all isFigure = true :=
    List.all_eq_true.mpr fun c hc => by simp [isFigure, isDecimal_of_isDigit (h.2 c hc)]
  simp [allFigures, hall, h.1]

namespace Numeral

theorem valueOf_eq (cs : List Char) : valueOf cs = Nat.ofDigitChars 10 cs 0 := by
  rw [Nat.ofDigitChars_eq_foldl]
  unfold valueOf
  congr
  funext v c
  rw [Nat.mul_comm]
  rfl

theorem valueOf_cons (c : Char) (cs : List Char) :
    valueOf (c :: cs) = (c.toNat - 48) * 10 ^ cs.length + valueOf cs := by
  rw [valueOf_eq, valueOf_eq, Nat.ofDigitChars_cons, Nat.ofDigitChars_eq_ofDigitChars_zero]
  simp [Nat.mul_comm]

theorem valueOf_zeros_append (k : Nat) (cs : List Char) :
    valueOf (List.replicate k '0' ++ cs) = valueOf cs := by
  rw [valueOf_eq, valueOf_eq, Nat.ofDigitChars_append, Nat.ofDigitChars_replicate_zero, Nat.mul_zero]

theorem valueOf_append_zeros (k : Nat) (cs : List Char) :
    valueOf (cs ++ List.replicate k '0') = valueOf cs * 10 ^ k := by
  rw [valueOf_eq, valueOf_eq, Nat.ofDigitChars_append, Nat.ofDigitChars_replicate_zero, Nat.mul_comm]

theorem valueOf_toDigits (n : Nat) : valueOf (Nat.toDigits 10 n) = n := by
  rw [valueOf_eq, Nat.ofDigitChars_ten_toDigits]

theorem valueOf_lt {cs : List Char} (h : ∀ c ∈ cs, c.isDigit = true) :
    valueOf cs < 10 ^ cs.length := by
  induction cs with
  | nil => decide
  | cons c rest ih =>
    have hc := toNat_of_isDigit (h c List.mem_cons_self)
    have hrest := ih fun d hd => h d (List.mem_cons_of_mem c hd)
    have hfirst : (c.toNat - 48) * 10 ^ rest.length ≤ 9 * 10 ^ rest.length :=
      Nat.mul_le_mul_right _ (by omega)
    rw [valueOf_cons, List.length_cons, pow_succ]
    omega

/-- Numerals of one length stand in order of their values. -/
theorem lt_iff_valueOf_lt {cs ds : List Char} (hc : ∀ c ∈ cs, c.isDigit = true)
    (hd : ∀ d ∈ ds, d.isDigit = true) (hlength : cs.length = ds.length) :
    cs < ds ↔ valueOf cs < valueOf ds := by
  -- the first digits decide unless they are the same
  induction cs generalizing ds with
  | nil =>
    obtain rfl := List.length_eq_zero_iff.mp hlength.symm
    simp
  | cons c cs ih =>
    cases ds with
    | nil => simp at hlength
    | cons d ds =>
      have hlength' : cs.length = ds.length := by simpa using hlength
      have hcs : ∀ x ∈ cs, x.isDigit = true := fun x hx => hc x (List.mem_cons_of_mem c hx)
      have hds : ∀ x ∈ ds, x.isDigit = true := fun x hx => hd x (List.mem_cons_of_mem d hx)
      have hvc := valueOf_lt hcs
      have hvd := valueOf_lt hds
      have hc48 := toNat_of_isDigit (hc c List.mem_cons_self)
      have hd48 := toNat_of_isDigit (hd d List.mem_cons_self)
      rw [List.cons_lt_cons_iff, valueOf_cons, valueOf_cons, ih hcs hds hlength', hlength']
      rw [hlength'] at hvc
      rcases lt_trichotomy c d with hlt | rfl | hgt
      · have hval : c.toNat < d.toNat := hlt
        have hstep : (c.toNat - 48 + 1) * 10 ^ ds.length ≤ (d.toNat - 48) * 10 ^ ds.length :=
          Nat.mul_le_mul_right _ (by omega)
        rw [Nat.add_mul, Nat.one_mul] at hstep
        exact iff_of_true (Or.inl hlt) (by omega)
      · simp
      · have hval : d.toNat < c.toNat := hgt
        have hstep : (d.toNat - 48 + 1) * 10 ^ ds.length ≤ (c.toNat - 48) * 10 ^ ds.length :=
          Nat.mul_le_mul_right _ (by omega)
        rw [Nat.add_mul, Nat.one_mul] at hstep
        refine iff_of_false ?_ (by omega)
        rintro (h | ⟨h, -⟩)
        · exact absurd hgt h.asymm
        · exact hgt.ne h.symm

/-! ## Reading digits -/

end Numeral

/-- A text without a blank at either end is left as it is. -/
theorem Text.stripped_of_ends {cs : List Char} (hfirst : ∀ c, cs.head? = some c → isBlank c = false)
    (hlast : ∀ c, cs.getLast? = some c → isBlank c = false) : stripped cs = cs := by
  have hstays : ∀ ds : List Char, (∀ c, ds.head? = some c → isBlank c = false) →
      ds.dropWhile isBlank = ds := by
    intro ds hds
    cases ds with
    | nil => rfl
    | cons c rest => rw [List.dropWhile_cons_of_neg (by simp [hds c rfl])]
  have hback : ∀ c, cs.reverse.head? = some c → isBlank c = false := by
    intro c hc
    rw [List.head?_reverse] at hc
    exact hlast c hc
  unfold stripped
  rw [hstays cs hfirst, hstays cs.reverse hback, List.reverse_reverse]

/-- Nothing is taken off where no character is blank. -/
theorem Text.stripped_eq_self {cs : List Char} (h : ∀ c ∈ cs, isBlank c = false) :
    stripped cs = cs :=
  stripped_of_ends (fun c hc => h c (List.mem_of_mem_head? hc)) fun c hc => h c (List.mem_of_mem_getLast? hc)

namespace Numeral

/-- Characters stay that are no digits of another script. -/
theorem asciiDigits_eq_self {cs : List Char}
    (h : ∀ c ∈ cs, ((decimalValue? c).map fun v => Char.ofNat (48 + v)).getD c = c) :
    asciiDigits cs = cs := by
  unfold asciiDigits
  refine (List.map_congr_left ?_).trans (List.map_id cs)
  intro c hc
  have hvalue := h c hc
  cases hv : decimalValue? c with
  | none => rfl
  | some v => simpa [hv] using hvalue

theorem underscoresFit_of_none {cs : List Char} (after : Bool) (h : ∀ c ∈ cs, c ≠ '_') :
    underscoresFit after cs = true := by
  induction cs generalizing after with
  | nil => rfl
  | cons c rest ih =>
    unfold underscoresFit
    split
    next hnil => cases hnil
    next heq => exact absurd (List.cons.inj heq).1 (h c List.mem_cons_self)
    next heq =>
      obtain ⟨rfl, rfl⟩ := List.cons.inj heq
      exact ih _ fun d hd => h d (List.mem_cons_of_mem _ hd)

theorem filter_underscores {cs : List Char} (h : ∀ c ∈ cs, c ≠ '_') : cs.filter (· ≠ '_') = cs :=
  List.filter_eq_self.mpr fun c hc => by simpa using h c hc

theorem ne_underscore_of_isDigit {c : Char} (h : c.isDigit = true) : c ≠ '_' := by
  rintro rfl
  exact absurd h (by decide)

theorem asciiDigits_digits {cs : List Char} (h : ∀ c ∈ cs, c.isDigit = true) :
    asciiDigits cs = cs :=
  asciiDigits_eq_self fun c hc => by rw [decimalValue?_of_isDigit (h c hc), Option.getD_some]

theorem sign_digits {cs : List Char} (h : ∀ c ∈ cs, c.isDigit = true) : sign cs = (false, cs) := by
  unfold sign
  split
  next => exact absurd (h '-' List.mem_cons_self) (by decide)
  next => exact absurd (h '+' List.mem_cons_self) (by decide)
  next => rfl

theorem int?_digits {cs : List Char} (h : AreDigits cs) :
    int? (String.ofList cs) = some (valueOf cs : Int) := by
  have hunmarked : ∀ c ∈ cs, c ≠ '_' := fun c hc => ne_underscore_of_isDigit (h.2 c hc)
  have hall : cs.all Char.isDigit = true := List.all_eq_true.mpr h.2
  have hstripped : Text.stripped cs = cs :=
    Text.stripped_eq_self fun c hc => isBlank_of_isDigit (h.2 c hc)
  unfold int?
  simp only [String.toList_ofList, hstripped, asciiDigits_digits h.2, sign_digits h.2,
    underscoresFit_of_none false hunmarked, filter_underscores hunmarked, hall]
  simp [h.1]

end Numeral

namespace Whole

/-- Digits are read as their value, unless there are too many. -/
theorem read_digits {cs : List Char} (h : AreDigits cs) :
    read (String.ofList cs) =
      if digitLimit < cs.length then .error (.tooManyFigures cs.length)
      else .ok (Numeral.valueOf cs) := by
  have hfilter : cs.filter isDecimal = cs :=
    List.filter_eq_self.mpr fun c hc => isDecimal_of_isDigit (h.2 c hc)
  unfold read
  simp only [Numeral.int?_digits h, String.toList_ofList, hfilter]

/-! ## Padding -/

theorem padded_of_digits (width : Int) {cs : List Char} (h : ∀ c ∈ cs, c.isDigit = true) :
    padded width cs = List.replicate (width.toNat - cs.length) '0' ++ cs := by
  unfold padded
  split
  next => exact absurd (h '-' List.mem_cons_self) (by decide)
  next => rfl

theorem write_of_lt {v : Nat} (h : v < Nat.pow 10 digitLimit) :
    write v = .ok (String.ofList (Nat.toDigits 10 v)) :=
  if_neg (Nat.not_le.mpr h)

theorem write_of_le {v : Nat} (h : Nat.pow 10 digitLimit ≤ v) : write v = .error .tooManyDigits :=
  if_pos h

/-- The digits of a value with zeros in front up to a width. -/
def figures (width : Int) (v : Nat) : List Char := padded width (Nat.toDigits 10 v)

variable {width : Int} {v w : Nat}

theorem figures_eq (width : Int) (v : Nat) : figures width v =
    List.replicate (width.toNat - (Nat.toDigits 10 v).length) '0' ++ Nat.toDigits 10 v :=
  padded_of_digits width fun _ hc => isDigit_of_mem_toDigits hc

theorem areDigits_figures (width : Int) (v : Nat) : AreDigits (figures width v) := by
  rw [figures_eq]
  refine ⟨by simp, ?_⟩
  exact fun c hc => (List.mem_append.mp hc).elim isDigit_of_mem_zeros isDigit_of_mem_toDigits

theorem valueOf_figures (width : Int) (v : Nat) : Numeral.valueOf (figures width v) = v := by
  rw [figures_eq, Numeral.valueOf_zeros_append, Numeral.valueOf_toDigits]

theorem length_figures (width : Int) (v : Nat) :
    (figures width v).length = max width.toNat (Nat.toDigits 10 v).length := by
  rw [figures_eq, List.length_append, List.length_replicate]
  omega

theorem length_toDigits_mono (h : v ≤ w) :
    (Nat.toDigits 10 v).length ≤ (Nat.toDigits 10 w).length := by
  exact (Nat.length_toDigits_le_iff (by decide) Nat.length_toDigits_pos).mpr
    (h.trans_lt (lt_pow_length_toDigits w))

/-- A greater value has no fewer digits. -/
theorem length_figures_mono (width : Int) (h : v ≤ w) :
    (figures width v).length ≤ (figures width w).length := by
  rw [length_figures, length_figures]
  exact max_le_max le_rfl (length_toDigits_mono h)

theorem lt_pow_of_length_figures {k : Nat} (h : (figures width v).length ≤ k) :
    v < Nat.pow 10 k := by
  rw [length_figures] at h
  have hpos : 0 < k := Nat.length_toDigits_pos.trans_le ((le_max_right _ _).trans h)
  exact (Nat.length_toDigits_le_iff (by decide) hpos).mp ((le_max_right _ _).trans h)

end Whole

end FaultDesk
