import FaultDesk.Proofs.Config.Reread
import FaultDesk.Proofs.Number.Reading
import FaultDesk.Proofs.Number.Rounding

/-!
The shorthand of a duration: digits of any script, with a fraction or without one, and the letter of a unit
in either case, with blanks where they do no harm. It says the same as a duration that is written field by
field, with the number nearest to the one that the digits spell.
-/

namespace FaultDesk

/-! ## Digits of any script -/

theorem inRanges_bounds {code : Nat} {rs : List (Nat × Nat)} (h : inRanges code rs = true) :
    ∃ r ∈ rs, r.1 ≤ code ∧ code ≤ r.2 := by
  induction rs with
  | nil => cases h
  | cons r rest ih =>
    unfold inRanges at h
    split at h
    next => cases h
    next hfirst =>
      split at h
      next hlast => exact ⟨r, List.mem_cons_self, Nat.not_lt.mp hfirst, hlast⟩
      next =>
        obtain ⟨r', hr', hbounds⟩ := ih h
        exact ⟨r', List.mem_cons_of_mem r hr', hbounds⟩

theorem decimalIn_bounds {code v : Nat} {rs : List (Nat × Nat)} (h : decimalIn code rs = some v) :
    ∃ r ∈ rs, r.1 ≤ code ∧ code ≤ r.2 := by
  induction rs with
  | nil => cases h
  | cons r rest ih =>
    unfold decimalIn at h
    split at h
    next => cases h
    next hfirst =>
      split at h
      next hlast => exact ⟨r, List.mem_cons_self, Nat.not_lt.mp hfirst, hlast⟩
      next =>
        obtain ⟨r', hr', hbounds⟩ := ih h
        exact ⟨r', List.mem_cons_of_mem r hr', hbounds⟩

theorem isBlank_of_isDecimal {c : Char} (h : isDecimal c = true) : isBlank c = false := by
  obtain ⟨v, hv⟩ := Option.isSome_iff_exists.mp h
  unfold decimalValue? at hv
  split at hv
  next =>
    split at hv
    next hdigit => exact isBlank_of_isDigit (by simpa [Char.isDigit, Char.le_def] using hdigit)
    next => cases hv
  next =>
    have hapart : ∀ r ∈ decimalRanges, ∀ b ∈ blankRanges, r.2 < b.1 ∨ b.2 < r.1 := by decide
    obtain ⟨r, hr, hfirst, hlast⟩ := decimalIn_bounds hv
    cases hblank : isBlank c with
    | false => rfl
    | true =>
      obtain ⟨b, hb, hfirst', hlast'⟩ := inRanges_bounds hblank
      have := hapart r hr b hb
      omega

theorem lt_of_decimalValue? {c : Char} {v : Nat} (h : decimalValue? c = some v) : v < 10 := by
  unfold decimalValue? at h
  split at h
  next =>
    split at h
    next hdigit =>
      have hnine : c.toNat ≤ 57 := hdigit.2
      obtain rfl := Option.some.inj h
      omega
    next => cases h
  next => exact decimalIn_lt h

namespace Numeral

/-- The number that digits of any script stand for. -/
def worth (cs : List Char) : Nat := cs.foldl (fun n c => n * 10 + (decimalValue? c).getD 0) 0

variable {cs whole part : List Char}

theorem isDigit_ofNat {v : Nat} (h : v < 10) :
    (Char.ofNat (48 + v)).isDigit = true ∧ (Char.ofNat (48 + v)).toNat - 48 = v := by
  revert v
  decide

theorem isDigit_asciiDigits (h : ∀ c ∈ cs, isDecimal c = true) : ∀ c ∈ asciiDigits cs, c.isDigit = true := by
  intro c hc
  obtain ⟨d, hd, rfl⟩ := List.mem_map.mp hc
  obtain ⟨v, hv⟩ := Option.isSome_iff_exists.mp (h d hd)
  rw [hv]
  exact (isDigit_ofNat (lt_of_decimalValue? hv)).1

theorem valueOf_asciiDigits (h : ∀ c ∈ cs, isDecimal c = true) : valueOf (asciiDigits cs) = worth cs := by
  unfold valueOf worth asciiDigits
  rw [List.foldl_map]
  refine List.foldl_ext _ _ _ fun n c hc => ?_
  obtain ⟨v, hv⟩ := Option.isSome_iff_exists.mp (h c hc)
  rw [hv]
  dsimp only
  rw [(isDigit_ofNat (lt_of_decimalValue? hv)).2, Option.getD_some]

theorem asciiDigits_fraction : asciiDigits (fraction part) = fraction (asciiDigits part) := by
  cases part with
  | nil => rfl
  | cons c rest => rfl

/-- Digits of any script are read as the number nearest to the one that they spell. -/
theorem ofText?_digits (hne : whole ≠ []) (hwhole : ∀ c ∈ whole, isDecimal c = true)
    (hpart : ∀ c ∈ part, isDecimal c = true) :
    Double.ofText? (String.ofList (whole ++ fraction part)) =
      some (Double.ofDecimal false (worth (whole ++ part)) (-part.length)) := by
  have hdigits : AreDigits (asciiDigits whole) :=
    ⟨by simpa [asciiDigits] using hne, isDigit_asciiDigits hwhole⟩
  have hspells := @spells_fraction _ _ [] 0 hdigits (isDigit_asciiDigits hpart) rfl
  rw [List.append_nil, Int.zero_sub] at hspells
  have hascii : asciiDigits (whole ++ fraction part) = asciiDigits whole ++ fraction (asciiDigits part) := by
    rw [← asciiDigits_fraction]
    exact List.map_append
  have hread := ofText?_spelled hspells false
  have hvalue : valueOf (asciiDigits whole ++ asciiDigits part) = worth (whole ++ part) := by
    rw [← valueOf_asciiDigits fun c hc => (List.mem_append.mp hc).elim (hwhole c) (hpart c)]
    exact congrArg valueOf List.map_append.symm
  have hlength : (asciiDigits part).length = part.length := List.length_map _
  rw [hvalue, hlength] at hread
  -- the text is read as the one with ASCII digits in the place of the others
  have hstripped : Text.stripped (whole ++ fraction part) = whole ++ fraction part := by
    refine Text.stripped_eq_self fun c hc => ?_
    rcases List.mem_append.mp hc with hc | hc
    · exact isBlank_of_isDecimal (hwhole c hc)
    · rcases mem_fraction hc with rfl | hc
      · decide
      · exact isBlank_of_isDecimal (hpart c hc)
  have hunmarked : ∀ c ∈ asciiDigits whole ++ fraction (asciiDigits part), c ≠ '_' :=
    fun c hc => ne_underscore_of_mem_marks (hspells.marked c hc)
  have hplain : Double.ofText? (String.ofList (whole ++ fraction part)) =
      plainDouble? (asciiDigits whole ++ fraction (asciiDigits part)) := by
    unfold Double.ofText?
    simp only [String.toList_ofList, hstripped, hascii, underscoresFit_of_none false hunmarked,
      filter_underscores hunmarked, if_true]
  rw [hplain, ← ofText?_of_marks hspells.marked]
  exact hread

end Numeral

namespace Duration

/-! ## Splitting a shorthand -/

/-- Blanks, digits with a fraction or without one, blanks, a letter, and blanks again. -/
def Shorthand (cs whole part : List Char) (letter : Char) : Prop :=
  ∃ before between behind,
    cs = before ++ (whole ++ (Numeral.fraction part ++ (between ++ letter :: behind))) ∧
    (∀ c ∈ before ++ between ++ behind, isBlank c = true) ∧ whole ≠ [] ∧
    ∀ c ∈ whole ++ part, isDecimal c = true

/-- The letters that a shorthand may end with: those of the units, and a long s. -/
def IsMark (letter : Char) : Prop := letter.toNat = 0x17f ∨ letter.toLower ∈ "smhd".toList

theorem eq_long_of_toNat {c : Char} (h : c.toNat = 0x17f) : c = Char.ofNat 0x17f := by
  rw [← h, Char.ofNat_toNat]

/-- Only the ASCII letters have the lower case of a unit. -/
theorem mem_letters {c : Char} (h : c.toLower ∈ "smhd".toList) : c ∈ "smhdSMHD".toList := by
  rcases Nat.lt_or_ge c.toNat 128 with hascii | hother
  · have hall : ∀ n < 128, (Char.ofNat n).toLower ∈ "smhd".toList →
        Char.ofNat n ∈ "smhdSMHD".toList := by decide
    simpa only [Char.ofNat_toNat] using hall c.toNat hascii (by simpa only [Char.ofNat_toNat] using h)
  · have hsame : c.toLower = c := by
      unfold Char.toLower
      refine dif_neg fun hupper => ?_
      have hlast : c.toNat ≤ 90 := hupper.2
      omega
    rw [hsame] at h
    revert h
    simp
    rintro (rfl | rfl | rfl | rfl) <;> simp

/-- What holds of these letters holds of every character with such a lower case. -/
theorem forall_letter {p : Char → Bool} (h : "smhdSMHD".toList.all p = true) {c : Char}
    (hc : c.toLower ∈ "smhd".toList) : p c = true :=
  List.all_eq_true.mp h c (mem_letters hc)

theorem IsMark.plain {c : Char} (h : IsMark c) : isBlank c = false ∧ isDecimal c = false ∧ c ≠ '.' := by
  rcases h with hlong | hletter
  · rw [eq_long_of_toNat hlong]
    decide
  · simpa using @forall_letter (fun c => !isBlank c && (!isDecimal c && c != '.')) (by decide) c hletter

/-- The fraction that a text begins with, and what follows it. -/
def takeFraction (rest : List Char) : List Char × List Char :=
  match rest with
  | '.' :: r =>
    if (r.takeWhile isDecimal).isEmpty then ([], rest)
    else ('.' :: r.takeWhile isDecimal, r.dropWhile isDecimal)
  | _ => ([], rest)

theorem split?_eq (cs : List Char) : split? cs =
    match ((takeFraction ((cs.dropWhile isBlank).dropWhile isDecimal)).2).dropWhile isBlank with
    | letter :: tail =>
      if ((cs.dropWhile isBlank).takeWhile isDecimal).isEmpty ∨ !tail.all isBlank then none
      else if letter.toNat = 0x17f ∨ "smhd".toList.contains letter.toLower then
        some ((cs.dropWhile isBlank).takeWhile isDecimal ++
          (takeFraction ((cs.dropWhile isBlank).dropWhile isDecimal)).1, letter)
      else none
    | [] => none := rfl

theorem takeFraction_spec (rest : List Char) :
    ∃ part back, takeFraction rest = (Numeral.fraction part, back) ∧
      rest = Numeral.fraction part ++ back ∧ ∀ c ∈ part, isDecimal c = true := by
  unfold takeFraction
  split
  next r =>
    split
    next => exact ⟨[], _, rfl, rfl, by simp⟩
    next hsome =>
      have hne : r.takeWhile isDecimal ≠ [] := by simpa using hsome
      refine ⟨r.takeWhile isDecimal, r.dropWhile isDecimal, ?_, ?_, fun c hc => List.mem_takeWhile_imp hc⟩
      · rw [Numeral.fraction, if_neg hne]
      · rw [Numeral.fraction, if_neg hne, List.cons_append, List.takeWhile_append_dropWhile]
  next => exact ⟨[], _, rfl, rfl, by simp⟩

theorem takeFraction_append {part back : List Char} (hpart : ∀ c ∈ part, isDecimal c = true)
    (hback : ∀ c, back.head? = some c → isDecimal c = false ∧ c ≠ '.') :
    takeFraction (Numeral.fraction part ++ back) = (Numeral.fraction part, back) := by
  rcases eq_or_ne part [] with rfl | hne
  · show takeFraction back = ([], back)
    unfold takeFraction
    split
    next r => exact absurd rfl (hback '.' rfl).2
    next => rfl
  · obtain ⟨htake, hdrop⟩ := takeWhile_stopped hpart fun c hc => (hback c hc).1
    rw [Numeral.fraction, if_neg hne, List.cons_append]
    unfold takeFraction
    simp only [htake, hdrop]
    rw [if_neg (by simpa using hne)]

/-- A text is split exactly when it is a shorthand. -/
theorem split?_eq_some_iff {cs digits : List Char} {letter : Char} :
    split? cs = some (digits, letter) ↔ IsMark letter ∧
      ∃ whole part, Shorthand cs whole part letter ∧ digits = whole ++ Numeral.fraction part := by
  rw [split?_eq]
  constructor
  · intro h
    have hbefore := @List.takeWhile_append_dropWhile _ isBlank cs
    have hwhole := @List.takeWhile_append_dropWhile _ isDecimal (cs.dropWhile isBlank)
    obtain ⟨part, back, htaken, hrest, hpart⟩ :=
      takeFraction_spec ((cs.dropWhile isBlank).dropWhile isDecimal)
    have hbetween := @List.takeWhile_append_dropWhile _ isBlank back
    rw [htaken] at h
    dsimp only at h
    split at h
    next mark tail htail =>
      split at h
      next => cases h
      next hkept =>
        split at h
        next hmark =>
          obtain ⟨hdigits, rfl⟩ := Prod.mk.inj (Option.some.inj h)
          have hne : (cs.dropWhile isBlank).takeWhile isDecimal ≠ [] := by
            simpa using fun h => hkept (Or.inl h)
          have hbehind : tail.all isBlank = true := by
            simpa using fun h => hkept (Or.inr h)
          refine ⟨by simpa [IsMark] using hmark, _, part, ⟨cs.takeWhile isBlank, back.takeWhile isBlank,
            tail, ?_, ?_, ?_, ?_⟩, hdigits.symm⟩
          · rw [← htail, hbetween, ← hrest, hwhole, hbefore]
          · intro c hc
            simp only [List.mem_append] at hc
            rcases hc with (hc | hc) | hc
            · exact List.mem_takeWhile_imp hc
            · exact List.mem_takeWhile_imp hc
            · exact List.all_eq_true.mp hbehind c hc
          · exact hne
          · intro c hc
            exact (List.mem_append.mp hc).elim (fun hc => List.mem_takeWhile_imp hc) (hpart c)
        next => cases h
    next => cases h
  · rintro ⟨hmark, whole, part, ⟨before, between, behind, rfl, hblank, hne, hdecimal⟩, rfl⟩
    obtain ⟨hmarkblank, hmarkdecimal, hmarkpoint⟩ := hmark.plain
    have hbefore : ∀ c ∈ before, isBlank c = true := fun c hc => hblank c (by simp [hc])
    have hbetween : ∀ c ∈ between, isBlank c = true := fun c hc => hblank c (by simp [hc])
    have hbehind : ∀ c ∈ behind, isBlank c = true := fun c hc => hblank c (by simp [hc])
    have hwhole : ∀ c ∈ whole, isDecimal c = true := fun c hc => hdecimal c (by simp [hc])
    have hpart : ∀ c ∈ part, isDecimal c = true := fun c hc => hdecimal c (by simp [hc])
    -- what each part ends in front of
    have hback : ∀ c, (between ++ letter :: behind).head? = some c → isDecimal c = false ∧ c ≠ '.' := by
      intro c hc
      cases between with
      | nil =>
        obtain rfl := Option.some.inj hc
        exact ⟨hmarkdecimal, hmarkpoint⟩
      | cons b rest =>
        obtain rfl := Option.some.inj hc
        have hb := hbetween _ List.mem_cons_self
        constructor
        · cases hdec : isDecimal b with
          | false => rfl
          | true =>
            rw [isBlank_of_isDecimal hdec] at hb
            cases hb
        · rintro rfl
          exact absurd hb (by decide)
    have hrest : ∀ c, (Numeral.fraction part ++ (between ++ letter :: behind)).head? = some c →
        isDecimal c = false := by
      intro c hc
      cases part with
      | nil => exact (hback c hc).1
      | cons d ds =>
        obtain rfl := Option.some.inj hc
        decide
    have hfirst : ∀ c, (whole ++ (Numeral.fraction part ++ (between ++ letter :: behind))).head? = some c →
        isBlank c = false := by
      intro c hc
      obtain ⟨d, ds, rfl⟩ := List.exists_cons_of_ne_nil hne
      obtain rfl := Option.some.inj hc
      exact isBlank_of_isDecimal (hwhole _ List.mem_cons_self)
    have hmarkfirst : ∀ c, (letter :: behind).head? = some c → isBlank c = false := by
      intro c hc
      obtain rfl := Option.some.inj hc
      exact hmarkblank
    rw [(takeWhile_stopped hbefore hfirst).2, (takeWhile_stopped hwhole hrest).1,
      (takeWhile_stopped hwhole hrest).2, takeFraction_append hpart hback]
    dsimp only
    rw [(takeWhile_stopped hbetween hmarkfirst).2]
    dsimp only
    have hkept : ¬ (whole.isEmpty = true ∨ (!behind.all isBlank) = true) := by
      rw [List.all_eq_true.mpr hbehind]
      simpa using hne
    have hletter : letter.toNat = 0x17f ∨ "smhd".toList.contains letter.toLower = true := by
      simpa [IsMark] using hmark
    rw [if_neg hkept, if_pos hletter]

/-! ## Checking a shorthand -/

/-- A text is a shorthand with the letter of a unit, in either case. -/
def Spells (s : String) (whole part : List Char) (unit : DurationUnit) : Prop :=
  ∃ letter, Shorthand s.toList whole part letter ∧ [letter.toLower] = unit.letter.toList

variable {whole part : List Char} {letter : Char} {unit : DurationUnit} {s : String}

/-- The amount that the digits of a shorthand stand for. -/
def amountOf (whole part : List Char) : Double :=
  .ofDecimal false (Numeral.worth (whole ++ part)) (-part.length)

theorem isNearest_amountOf (whole part : List Char) :
    (amountOf whole part).IsNearest false (Numeral.worth (whole ++ part)) (10 ^ part.length) := by
  have h := Double.isNearest_ofDecimal false (Numeral.worth (whole ++ part)) (-part.length)
  rwa [show (-(part.length : Int)).toNat = 0 by omega, show (- -(part.length : Int)).toNat = part.length by omega,
    Nat.pow_zero, Nat.mul_one] at h

theorem amountOf_sound (whole part : List Char) : (amountOf whole part).lt Double.zero = false := by
  have hnearest := isNearest_amountOf whole part
  generalize amountOf whole part = x at hnearest ⊢
  rcases Nat.lt_or_ge (Numeral.worth (whole ++ part)) ((2 ^ 54 - 1) * 2 ^ 970 * 10 ^ part.length) with
    hsmall | hlarge
  · obtain ⟨steps, held, rfl, -⟩ := hnearest.finite hsmall
    simp [Double.lt, Double.place?, Double.zero]
  · rw [hnearest.infinite hlarge]
    rfl

/-- The fields that a shorthand stands for, with the others. -/
theorem shorthand_eq (hmark : IsMark letter) (h : Shorthand s.toList whole part letter)
    (others : List (Datum × Datum)) : shorthand (.text s) others =
      .valid ((.text "amount", .float (amountOf whole part)) ::
        (.text "unit", .text (String.ofList (lowerForm letter))) :: others) := by
  have hsplit := split?_eq_some_iff.mpr ⟨hmark, whole, part, h, rfl⟩
  obtain ⟨-, -, -, -, -, hne, hdecimal⟩ := h
  have hread := Numeral.ofText?_digits hne (fun c hc => hdecimal c (List.mem_append_left part hc))
    (fun c hc => hdecimal c (List.mem_append_right whole hc))
  have hwritten : (Datum.text s).written = .ok s := rfl
  unfold shorthand
  rw [hwritten]
  dsimp only
  rw [hsplit]
  dsimp only
  rw [hread, Option.getD_some, amountOf]

/-- The letter of a unit is put in lower case; a long s is left, and is no unit. -/
theorem lowerForm_of_mark (hmark : IsMark letter) :
    (∃ unit : DurationUnit, [letter.toLower] = unit.letter.toList ∧
        String.ofList (lowerForm letter) = unit.letter) ∨
      DurationUnit.words.lookup (String.ofList (lowerForm letter)) = none := by
  rcases hmark with hlong | hletter
  · right
    rw [eq_long_of_toNat hlong]
    decide +kernel
  · left
    obtain ⟨unit, -, h⟩ := of_decide_eq_true (@forall_letter
      (fun c => decide (∃ unit ∈ [DurationUnit.second, .minute, .hour, .day],
        [c.toLower] = unit.letter.toList ∧ String.ofList (lowerForm c) = unit.letter))
      (by decide) letter hletter)
    exact ⟨unit, h⟩

theorem isMark_of_unit (h : [letter.toLower] = unit.letter.toList) : IsMark letter := by
  right
  cases unit <;> simp [DurationUnit.letter] at h <;> simp [h]

theorem lowerForm_of_unit (h : [letter.toLower] = unit.letter.toList) :
    String.ofList (lowerForm letter) = unit.letter := by
  rcases isMark_of_unit h with hlong | hletter
  · rw [eq_long_of_toNat hlong] at h
    cases unit <;> exact absurd h (by decide)
  · have hlower := of_decide_eq_true (@forall_letter
      (fun c => decide (String.ofList (lowerForm c) = String.ofList [c.toLower])) (by decide) letter hletter)
    rw [hlower, h, String.ofList_toList]

/-- A text is a valid duration exactly when it is a shorthand with the letter of a unit. -/
theorem check_text_iff {d : Duration} : check (.text s) = .valid d ↔
    ∃ whole part unit, Spells s whole part unit ∧ d = ⟨amountOf whole part, unit, .continuous⟩ := by
  have hfields : fields (.text s) = shorthand (.text s) [] := rfl
  rw [check, hfields]
  constructor
  · intro h
    obtain ⟨es, hes, h⟩ := Checked.andThen_eq_valid.mp h
    cases hsplit : split? s.toList with
    | none =>
      have hwritten : (Datum.text s).written = .ok s := rfl
      unfold shorthand at hes
      rw [hwritten] at hes
      dsimp only at hes
      rw [hsplit] at hes
      cases hes
    | some found =>
      obtain ⟨digits, letter⟩ := found
      obtain ⟨hmark, whole, part, hshort, -⟩ := split?_eq_some_iff.mp hsplit
      rw [shorthand_eq hmark hshort] at hes
      cases hes
      rcases lowerForm_of_mark hmark with ⟨unit, hunit, hform⟩ | hnone
      · rw [hform, Field.required_found rfl (amountField_float (amountOf_sound whole part)),
          Field.optional_found rfl unit.word_letter] at h
        cases h
        exact ⟨whole, part, unit, ⟨letter, hshort, hunit⟩, rfl⟩
      · simp only [Checked.seq_eq_valid, Checked.fmap_eq_valid] at h
        obtain ⟨_, ⟨_, -, unit, hunit, -⟩, -⟩ := h
        have hword : Field.word DurationUnit.words (.text (String.ofList (lowerForm letter))) = .valid unit :=
          Checked.under_eq_valid.mp hunit
        unfold Field.word at hword
        dsimp only at hword
        rw [hnone] at hword
        cases hword
  · rintro ⟨whole, part, unit, ⟨letter, hshort, hunit⟩, rfl⟩
    rw [shorthand_eq (isMark_of_unit hunit) hshort, lowerForm_of_unit hunit, Checked.andThen_valid,
      Field.required_found rfl (amountField_float (amountOf_sound whole part)),
      Field.optional_found rfl unit.word_letter]
    rfl

/-- A shorthand among the fields of a duration stands for its amount and its unit. -/
theorem check_value (h : Spells s whole part unit) (mode : Datum) :
    check (.object [("value", .text s), ("mode", mode)]) =
      check (.object [("amount", .float (amountOf whole part)), ("unit", .text unit.letter),
        ("mode", mode)]) := by
  obtain ⟨letter, hshort, hunit⟩ := h
  have hvalue : fields (.object [("value", .text s), ("mode", mode)]) =
      shorthand (.text s) [(.text "mode", mode)] := rfl
  rw [check, check, hvalue, shorthand_eq (isMark_of_unit hunit) hshort, lowerForm_of_unit hunit]
  rfl

/-- A text is a duration exactly when it is a shorthand: blanks, digits with a fraction or without one,
blanks, the letter of a unit in either case, blanks. The amount is the number nearest to the one that the
digits spell, the condition has to hold all the time, and the same is said by fields with the text among
them or with the amount and the unit in its place. -/
theorem shorthand_spelled_out (s : String) :
    ((∃ d, check (.text s) = .valid d) ↔ ∃ whole part unit, Spells s whole part unit) ∧
    ∀ whole part unit, Spells s whole part unit →
      ∃ amount : Double, amount.IsNearest false (Numeral.worth (whole ++ part)) (10 ^ part.length) ∧
        check (.text s) = .valid ⟨amount, unit, .continuous⟩ ∧
        (∀ mode : DurationMode,
          check (.object [("value", .text s), ("mode", .text mode.name)]) = .valid ⟨amount, unit, mode⟩) ∧
        ∀ mode : Datum, check (.object [("value", .text s), ("mode", mode)]) =
          check (.object [("amount", .float amount), ("unit", .text unit.letter), ("mode", mode)]) := by
  constructor
  · constructor
    · rintro ⟨d, h⟩
      obtain ⟨whole, part, unit, hspells, -⟩ := check_text_iff.mp h
      exact ⟨whole, part, unit, hspells⟩
    · rintro ⟨whole, part, unit, hspells⟩
      exact ⟨_, check_text_iff.mpr ⟨whole, part, unit, hspells, rfl⟩⟩
  · intro whole part unit hspells
    refine ⟨amountOf whole part, isNearest_amountOf whole part,
      check_text_iff.mpr ⟨whole, part, unit, hspells, rfl⟩, fun mode => ?_, fun mode => check_value hspells mode⟩
    have hsound : Sound ⟨amountOf whole part, unit, mode⟩ := amountOf_sound whole part
    rw [check_value hspells]
    exact hsound.check_layout

/-- Digits of another script, and a line end behind a capital letter. -/
example : (check (.text " ٣.5 H\n")).value? = some ⟨.ofDecimal false 35 (-1), .hour, .continuous⟩ := by
  decide +kernel

end Duration

end FaultDesk
