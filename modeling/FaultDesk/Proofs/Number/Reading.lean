import Mathlib.Data.List.DropRight
import FaultDesk.Number.Decimal
import FaultDesk.Proofs.Number.Figures

/-!
Numbers in writing. Digits, with a point or without one, and an exponent or none are read as the number
that they spell. A decimal is read back from its text digit by digit, and a whole number is read from its
digits.
-/

namespace FaultDesk

/-- A run of characters ends in front of the first that is not of its kind. -/
theorem takeWhile_stopped {p : Char → Bool} {front back : List Char} (hfront : ∀ c ∈ front, p c = true)
    (hback : ∀ c, back.head? = some c → p c = false) :
    (front ++ back).takeWhile p = front ∧ (front ++ back).dropWhile p = back := by
  rw [List.takeWhile_append_of_pos hfront, List.dropWhile_append_of_pos hfront]
  cases back with
  | nil => simp
  | cons c rest => simp [hback c rfl]

/-! ## Blanks around a text -/

namespace Text

theorem stripped_eq (cs : List Char) :
    stripped cs = (cs.dropWhile isBlank).rdropWhile isBlank := rfl

theorem stripped_stripped (cs : List Char) : stripped (stripped cs) = stripped cs := by
  -- what is left starts as the characters did behind the blanks in front
  have hfront : ((cs.dropWhile isBlank).rdropWhile isBlank).dropWhile isBlank =
      (cs.dropWhile isBlank).rdropWhile isBlank := by
    have hpart := List.rdropWhile_prefix isBlank (l := cs.dropWhile isBlank)
    rw [List.dropWhile_eq_self_iff]
    intro hpos
    rw [hpart.getElem hpos]
    exact List.dropWhile_eq_self_iff.mp (List.dropWhile_idempotent ..) _
  rw [stripped_eq (stripped cs), stripped_eq cs, hfront, List.rdropWhile_idempotent]

theorem toList_strip (s : String) : (strip s).toList = stripped s.toList := by
  rw [strip, String.toList_ofList]

end Text

namespace Double

/-- A number is read with the blanks around it or without them. -/
theorem ofText?_strip (s : String) : ofText? (Text.strip s) = ofText? s := by
  rw [ofText?, ofText?, Text.toList_strip, Text.stripped_stripped]

end Double

namespace Numeral

/-! ## The characters of a number -/

/-- The characters that numbers are written with. -/
def marks : List Char := "0123456789.+-eE".toList

/-- What holds of all of them holds of each. -/
theorem forall_mark {p : Char → Bool} (h : marks.all p = true) {c : Char} (hc : c ∈ marks) :
    p c = true :=
  List.all_eq_true.mp h c hc

theorem mem_marks_of_isDigit {c : Char} (h : c.isDigit = true) : c ∈ marks :=
  of_decide_eq_true (@forall_digit (fun c => decide (c ∈ marks)) (by decide) c h)

theorem isBlank_of_mem_marks {c : Char} (h : c ∈ marks) : isBlank c = false := by
  simpa using @forall_mark (fun c => !isBlank c) (by decide) c h

theorem ne_underscore_of_mem_marks {c : Char} (h : c ∈ marks) : c ≠ '_' := by
  simpa using @forall_mark (fun c => c ≠ '_') (by decide) c h

theorem decimalValue?_of_mem_marks {c : Char} (h : c ∈ marks) :
    ((decimalValue? c).map fun v => Char.ofNat (48 + v)).getD c = c :=
  of_decide_eq_true (@forall_mark
    (fun c => decide (((decimalValue? c).map fun v => Char.ofNat (48 + v)).getD c = c))
    (by decide) c h)

/-- A text of such characters is read as it stands. -/
theorem ofText?_of_marks {cs : List Char} (h : ∀ c ∈ cs, c ∈ marks) :
    Double.ofText? (String.ofList cs) = plainDouble? cs := by
  have hstripped : Text.stripped cs = cs :=
    Text.stripped_eq_self fun c hc => isBlank_of_mem_marks (h c hc)
  have hascii : asciiDigits cs = cs :=
    asciiDigits_eq_self fun c hc => decimalValue?_of_mem_marks (h c hc)
  have hunmarked : ∀ c ∈ cs, c ≠ '_' := fun c hc => ne_underscore_of_mem_marks (h c hc)
  unfold Double.ofText?
  simp only [String.toList_ofList, hstripped, hascii, underscoresFit_of_none false hunmarked,
    filter_underscores hunmarked, if_true]

/-! ## Exponents -/

variable {whole part tail ds cs : List Char} {digits : Nat} {e : Int}

/-- A character is a sign in front or stands behind it. -/
theorem mem_sign {c : Char} (h : c ∈ cs) : c ∈ marks ∨ c ∈ (sign cs).2 := by
  unfold sign
  split
  next rest =>
    rcases List.mem_cons.mp h with rfl | h
    · exact Or.inl (by decide)
    · exact Or.inr h
  next rest =>
    rcases List.mem_cons.mp h with rfl | h
    · exact Or.inl (by decide)
    · exact Or.inr h
  next => exact Or.inr h

/-- What follows the digits of a numeral does not go on with a digit or a point. -/
theorem of_exponentPart (h : exponentPart tail = some e) :
    (∀ c ∈ tail, c ∈ marks) ∧ ∀ c, tail.head? = some c → c.isDigit = false ∧ c ≠ '.' := by
  unfold exponentPart at h
  split at h
  next => exact ⟨by simp, by simp⟩
  next c rest =>
    split at h
    next hmark =>
      have hc : c ∈ marks ∧ c.isDigit = false ∧ c ≠ '.' := by rcases hmark with rfl | rfl <;> decide
      refine ⟨?_, fun d hd => by obtain rfl := Option.some.inj hd; exact hc.2⟩
      have hdigits : ∀ d ∈ (sign rest).2, d.isDigit = true := by
        dsimp only at h
        split at h
        next hread => exact List.all_eq_true.mp hread.2
        next => cases h
      intro d hd
      rcases List.mem_cons.mp hd with rfl | hd
      · exact hc.1
      · exact (mem_sign hd).elim id fun hdigit => mem_marks_of_isDigit (hdigits d hdigit)
    next => cases h

theorem exponentPart_signed {mark : Char} (hmark : mark = 'e' ∨ mark = 'E') (hds : AreDigits ds)
    (hvalue : valueOf ds = e.natAbs) :
    exponentPart (mark :: (if e < 0 then '-' else '+') :: ds) = some e := by
  have hread : ds ≠ [] ∧ ds.all Char.isDigit = true := ⟨hds.1, List.all_eq_true.mpr hds.2⟩
  by_cases hneg : e < 0
  · simp only [exponentPart, if_pos hmark, hneg, ↓reduceIte, sign, if_pos hread, hvalue]
    rw [Option.some.injEq]
    omega
  · simp only [exponentPart, if_pos hmark, hneg, ↓reduceIte, sign, if_pos hread, Bool.false_eq_true,
      hvalue]
    rw [Option.some.injEq]
    omega

/-! ## Spelled numbers -/

/-- The characters are read as so many digits with an exponent, whatever the sign in front. -/
structure Spells (cs : List Char) (digits : Nat) (e : Int) : Prop where
  head : ∃ c rest, cs = c :: rest ∧ c.isDigit = true
  marked : ∀ c ∈ cs, c ∈ marks
  read : ∀ negative, unsigned negative cs = some ⟨negative, digits, e⟩

theorem takeWhile_digits (hds : ∀ c ∈ ds, c.isDigit = true)
    (htail : ∀ c, tail.head? = some c → c.isDigit = false) :
    (ds ++ tail).takeWhile Char.isDigit = ds ∧ (ds ++ tail).dropWhile Char.isDigit = tail :=
  takeWhile_stopped hds htail

theorem spells_whole (hw : AreDigits whole) (he : exponentPart tail = some e) :
    Spells (whole ++ tail) (valueOf whole) e := by
  obtain ⟨hmarks, hend⟩ := of_exponentPart he
  obtain ⟨htake, hdrop⟩ := takeWhile_digits hw.2 fun c hc => (hend c hc).1
  obtain ⟨c, rest, rfl⟩ := List.exists_cons_of_ne_nil hw.1
  refine ⟨⟨c, rest ++ tail, rfl, hw.2 c List.mem_cons_self⟩, ?_, fun negative => ?_⟩
  · intro d hd
    rcases List.mem_append.mp hd with hd | hd
    · exact mem_marks_of_isDigit (hw.2 d hd)
    · exact hmarks d hd
  · unfold unsigned
    rw [htake, hdrop]
    dsimp only
    split
    next r => exact absurd rfl (hend '.' rfl).2
    next => simp [he]

theorem spells_pointed (hw : AreDigits whole) (hp : ∀ c ∈ part, c.isDigit = true)
    (he : exponentPart tail = some e) :
    Spells (whole ++ '.' :: (part ++ tail)) (valueOf (whole ++ part)) (e - part.length) := by
  obtain ⟨hmarks, hend⟩ := of_exponentPart he
  obtain ⟨htake, hdrop⟩ := takeWhile_digits hp fun c hc => (hend c hc).1
  obtain ⟨htake', hdrop'⟩ := @takeWhile_digits ('.' :: (part ++ tail)) whole hw.2 (by
    intro c hc
    obtain rfl := Option.some.inj hc
    rfl)
  obtain ⟨c, rest, rfl⟩ := List.exists_cons_of_ne_nil hw.1
  refine ⟨⟨c, rest ++ '.' :: (part ++ tail), rfl, hw.2 c List.mem_cons_self⟩, ?_, fun negative => ?_⟩
  · intro d hd
    simp only [List.mem_append, List.mem_cons] at hd
    rcases hd with hd | rfl | hd | hd
    · exact mem_marks_of_isDigit (hw.2 d (List.mem_cons.mpr hd))
    · decide
    · exact mem_marks_of_isDigit (hp d hd)
    · exact hmarks d hd
  · unfold unsigned
    simp only [htake', hdrop', htake, hdrop, he]
    simp

/-- A point and the digits behind it, when there are any. -/
def fraction (part : List Char) : List Char := if part = [] then [] else '.' :: part

theorem mem_fraction {c : Char} (h : c ∈ fraction part) : c = '.' ∨ c ∈ part := by
  unfold fraction at h
  split at h
  next => cases h
  next => exact List.mem_cons.mp h

/-- Digits with a fraction or without one, and an exponent or none. -/
theorem spells_fraction (hw : AreDigits whole) (hp : ∀ c ∈ part, c.isDigit = true)
    (he : exponentPart tail = some e) :
    Spells (whole ++ (fraction part ++ tail)) (valueOf (whole ++ part)) (e - part.length) := by
  cases part with
  | nil => simpa [fraction] using spells_whole hw he
  | cons c rest => exact spells_pointed hw hp he

/-- Digits with the point somewhere among them or behind them. -/
theorem spells_cut {cut : Nat} (hds : ∀ c ∈ ds, c.isDigit = true) (hpos : 0 < cut)
    (hle : cut ≤ ds.length) :
    Spells (ds.take cut ++ '.' :: ds.drop cut) (valueOf ds) ((cut : Int) - ds.length) := by
  have hwhole : AreDigits (ds.take cut) := by
    refine ⟨?_, fun c hc => hds c (List.mem_of_mem_take hc)⟩
    rw [ne_eq, List.take_eq_nil_iff, ← List.length_eq_zero_iff]
    omega
  have h := @spells_pointed (ds.take cut) (ds.drop cut) [] 0 hwhole
    (fun c hc => hds c (List.mem_of_mem_drop hc)) rfl
  rw [List.append_nil, List.take_append_drop, List.length_drop, Nat.cast_sub hle] at h
  rwa [show (0 : Int) - (ds.length - cut) = cut - ds.length by omega] at h

/-- Digits with zeros behind them, and a point and one more behind these. -/
theorem spells_round (k : Nat) (hds : AreDigits ds) :
    Spells (ds ++ List.replicate k '0' ++ ['.', '0']) (valueOf ds * 10 ^ (k + 1)) (-1) := by
  have hdigits : AreDigits (ds ++ List.replicate k '0') :=
    ⟨by simp [hds.1], fun c hc => (List.mem_append.mp hc).elim (hds.2 c) isDigit_of_mem_zeros⟩
  have hvalue : valueOf (ds ++ List.replicate k '0' ++ ['0']) = valueOf ds * 10 ^ (k + 1) := by
    rw [List.append_assoc, ← List.replicate_succ', valueOf_append_zeros]
  have h := @spells_pointed _ ['0'] [] 0 hdigits (fun _ => @isDigit_of_mem_zeros 1 _) rfl
  rw [hvalue] at h
  exact h

/-- Digits behind a zero, a point and more zeros. -/
theorem spells_below_one (k : Nat) (hds : ∀ c ∈ ds, c.isDigit = true) :
    Spells ('0' :: '.' :: (List.replicate k '0' ++ ds)) (valueOf ds) (-(k + ds.length : Nat)) := by
  have hpart : ∀ c ∈ List.replicate k '0' ++ ds, c.isDigit = true := fun c hc =>
    (List.mem_append.mp hc).elim isDigit_of_mem_zeros (hds c)
  have hvalue : valueOf (['0'] ++ (List.replicate k '0' ++ ds)) = valueOf ds :=
    (valueOf_zeros_append 1 _).trans (valueOf_zeros_append k ds)
  have h := @spells_pointed ['0'] _ [] 0 (by decide) hpart rfl
  rwa [hvalue, List.append_nil, List.length_append, List.length_replicate, Int.zero_sub] at h

/-- One digit, the others behind a point if there are others, and an exponent. -/
theorem spells_leading {c : Char} {rest : List Char} (hds : ∀ d ∈ c :: rest, d.isDigit = true)
    (he : exponentPart tail = some e) :
    Spells (c :: ((if rest.isEmpty then [] else '.' :: rest) ++ tail)) (valueOf (c :: rest))
      (e - rest.length) := by
  have hfirst : AreDigits [c] := by
    refine ⟨by simp, ?_⟩
    simpa using hds c List.mem_cons_self
  cases rest with
  | nil => simpa using spells_whole hfirst he
  | cons d more => exact spells_pointed hfirst (fun d hd => hds d (List.mem_cons_of_mem c hd)) he

theorem sign_minus (h : Spells cs digits e) (negative : Bool) :
    sign ((if negative then ['-'] else []) ++ cs) = (negative, cs) := by
  cases negative with
  | true => rfl
  | false =>
    obtain ⟨c, rest, rfl, hc⟩ := h.head
    show sign (c :: rest) = _
    unfold sign
    split
    next heq => exact absurd hc ((List.cons.inj heq).1 ▸ by decide)
    next heq => exact absurd hc ((List.cons.inj heq).1 ▸ by decide)
    next => rfl

theorem marked_minus (h : Spells cs digits e) (negative : Bool) :
    ∀ c ∈ (if negative then ['-'] else []) ++ cs, c ∈ marks := by
  intro c hc
  rcases List.mem_append.mp hc with hc | hc
  · cases negative with
    | true =>
      obtain rfl := List.mem_singleton.mp hc
      decide
    | false => cases hc
  · exact h.marked c hc

/-- What is spelled, with a minus in front or without one, is read as that number. -/
theorem ofText?_spelled (h : Spells cs digits e) (negative : Bool) :
    Double.ofText? (String.ofList ((if negative then ['-'] else []) ++ cs)) =
      some (Double.ofDecimal negative digits e) := by
  have hwords : lowered cs ∉ infinityWords ∧ lowered cs ≠ "nan".toList := by
    obtain ⟨c, rest, rfl, hc⟩ := h.head
    have hlower : c.toLower ≠ 'i' ∧ c.toLower ≠ 'n' := by
      simpa using @forall_digit (fun c => c.toLower ≠ 'i' ∧ c.toLower ≠ 'n') (by decide) c hc
    simp [lowered, infinityWords, hlower]
  rw [ofText?_of_marks (marked_minus h negative), plainDouble?, sign_minus h]
  dsimp only
  rw [if_neg (by simpa using hwords.1), if_neg hwords.2, h.read]
  rfl

/-- It has no blanks around it. -/
theorem stripped_spelled (h : Spells cs digits e) (negative : Bool) :
    Text.stripped ((if negative then ['-'] else []) ++ cs) =
      (if negative then ['-'] else []) ++ cs :=
  Text.stripped_eq_self fun c hc => isBlank_of_mem_marks (marked_minus h negative c hc)

end Numeral

/-! ## Decimals -/

namespace Decimal

/-- A finite decimal's text spells its digits and its exponent. -/
theorem text_finite (negative : Bool) (digits : Nat) (exponent : Int) :
    ∃ cs, (finite negative digits exponent).text =
        String.ofList ((if negative then ['-'] else []) ++ cs) ∧
      Numeral.Spells cs digits exponent := by
  refine ⟨_, rfl, ?_⟩
  have hds := areDigits_toDigits digits
  have hvalue := Numeral.valueOf_toDigits digits
  generalize Nat.toDigits 10 digits = ds at hds hvalue
  subst hvalue
  dsimp only
  split
  next hplain =>
    split
    next hzero =>
      subst hzero
      simpa using @Numeral.spells_whole ds [] 0 hds rfl
    next =>
      split
      next hleft =>
        have h := Numeral.spells_below_one ((ds.length : Int) + exponent).natAbs hds.2
        rwa [show -((((ds.length : Int) + exponent).natAbs + ds.length : Nat) : Int) = exponent by
          omega] at h
      next hleft =>
        have h := @Numeral.spells_cut ds ((ds.length : Int) + exponent).natAbs hds.2 (by omega)
          (by omega)
        rwa [show ((((ds.length : Int) + exponent).natAbs : Nat) : Int) - ds.length = exponent by
          omega] at h
  next =>
    obtain ⟨c, rest, rfl⟩ := List.exists_cons_of_ne_nil hds.1
    have hshown := Numeral.exponentPart_signed (Or.inr rfl)
      (areDigits_toDigits (((c :: rest).length : Int) + exponent - 1).natAbs)
      (Numeral.valueOf_toDigits _)
    have h := Numeral.spells_leading hds.2 hshown
    rwa [show (((c :: rest).length : Int) + exponent - 1) - rest.length = exponent by
      rw [List.length_cons]
      omega] at h

/-- A decimal's text is read as the number nearest to it. -/
theorem ofText?_text {d : Decimal} {x : Double} (h : d.toDouble? = some x) (hx : x.isNan = false) :
    Double.ofText? d.text = some x := by
  cases d with
  | nan negative signaling payload => cases signaling <;> cases h; cases hx
  | infinite negative =>
    cases h
    cases negative <;> decide +kernel
  | finite negative digits exponent =>
    cases h
    obtain ⟨cs, htext, hspells⟩ := text_finite negative digits exponent
    rw [htext, Numeral.ofText?_spelled hspells]

theorem strip_text {d : Decimal} {x : Double} (h : d.toDouble? = some x) (hx : x.isNan = false) :
    Text.strip d.text = d.text := by
  cases d with
  | nan negative signaling payload => cases signaling <;> cases h; cases hx
  | infinite negative => cases negative <;> decide +kernel
  | finite negative digits exponent =>
    obtain ⟨cs, htext, hspells⟩ := text_finite negative digits exponent
    rw [htext, Text.strip, String.toList_ofList, Numeral.stripped_spelled hspells]

end Decimal

end FaultDesk
