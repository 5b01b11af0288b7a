import FaultDesk.Datum.JsonRead
import FaultDesk.Proofs.Number.ReadBack

/-!
Numbers in JSON. A whole number is written in its digits and read from them; the text of any other has a
fraction or an exponent, no zero in front, and is read as the number that it is the text of.
-/

namespace FaultDesk

/-! ## Leading digits -/

/-- A positive number starts with another digit than zero. -/
theorem head?_toDigits {n : Nat} (hpos : 0 < n) : (Nat.toDigits 10 n).head? ≠ some '0' := by
  intro hhead
  obtain ⟨rest, hrest⟩ := List.head?_eq_some_iff.mp hhead
  have hds := (areDigits_toDigits n).2
  have hvalue := Numeral.valueOf_toDigits n
  have hleast : 10 ^ rest.length ≤ n := pow_le_of_length_toDigits hpos (by rw [hrest]; simp)
  rw [hrest] at hds hvalue
  have hless := Numeral.valueOf_lt fun c hc => hds c (List.mem_cons_of_mem '0' hc)
  rw [Numeral.valueOf_cons] at hvalue
  simp at hvalue
  omega

/-- No zero stands in front of other digits. -/
def NoLeadingZero (ds : List Char) : Prop := ds = ['0'] ∨ ds.head? ≠ some '0'

theorem noLeadingZero_toDigits (n : Nat) : NoLeadingZero (Nat.toDigits 10 n) := by
  rcases Nat.eq_zero_or_pos n with rfl | hpos
  · exact Or.inl rfl
  · exact Or.inr (head?_toDigits hpos)

namespace JsonRead

/-- What does not go on with a number. -/
def Stops (rest : List Char) : Prop :=
  ∀ c, rest.head? = some c → c.isDigit = false ∧ c ≠ '.' ∧ c ≠ 'e' ∧ c ≠ 'E'

variable {ds whole part tail rest : List Char} {e : Int}

theorem wholePart_append (hds : AreDigits ds) (hlead : NoLeadingZero ds)
    (hrest : ∀ c, rest.head? = some c → c.isDigit = false) : wholePart (ds ++ rest) = (ds, rest) := by
  rcases hlead with rfl | hlead
  · rfl
  · obtain ⟨htake, hdrop⟩ := Numeral.takeWhile_digits hds.2 hrest
    obtain ⟨c, more, rfl⟩ := List.exists_cons_of_ne_nil hds.1
    unfold wholePart
    split
    next heq =>
      rw [(List.cons.inj heq).1] at hlead
      exact absurd rfl hlead
    next => rw [htake, hdrop]

theorem fractionPart_append (hpart : ∀ c ∈ part, c.isDigit = true)
    (hrest : ∀ c, rest.head? = some c → c.isDigit = false ∧ c ≠ '.') :
    fractionPart (Numeral.fraction part ++ rest) = (part, rest) := by
  cases part with
  | nil =>
    show fractionPart rest = ([], rest)
    unfold fractionPart
    split
    next => exact absurd rfl (hrest '.' rfl).2
    next => rfl
  | cons c more =>
    obtain ⟨htake, hdrop⟩ := Numeral.takeWhile_digits hpart fun c hc => (hrest c hc).1
    show fractionPart ('.' :: (c :: more ++ rest)) = _
    unfold fractionPart
    simp only [htake, hdrop]
    rfl

/-- An exponent: nothing, or a mark, a sign and digits. -/
def IsTail (tail : List Char) (e : Int) : Prop :=
  tail = [] ∧ e = 0 ∨ ∃ ds, AreDigits ds ∧ Numeral.valueOf ds = e.natAbs ∧
    tail = 'e' :: (if e < 0 then '-' else '+') :: ds

theorem IsTail.exponentPart (h : IsTail tail e) : Numeral.exponentPart tail = some e := by
  rcases h with ⟨rfl, rfl⟩ | ⟨ds, hds, hvalue, rfl⟩
  · rfl
  · exact Numeral.exponentPart_signed (Or.inl rfl) hds hvalue

theorem IsTail.stops (h : IsTail tail e) (hrest : Stops rest) :
    ∀ c, (tail ++ rest).head? = some c → c.isDigit = false ∧ c ≠ '.' := by
  rcases h with ⟨rfl, -⟩ | ⟨ds, -, -, rfl⟩
  · intro c hc
    exact ⟨(hrest c hc).1, (hrest c hc).2.1⟩
  · intro c hc
    obtain rfl := Option.some.inj hc
    decide

theorem exponentPart_stops (hrest : Stops rest) : exponentPart rest = (none, rest) := by
  cases rest with
  | nil => rfl
  | cons c more =>
    obtain ⟨-, -, hsmall, hlarge⟩ := hrest c rfl
    unfold exponentPart
    dsimp only
    rw [if_neg (by simp [hsmall, hlarge])]

/-- The exponent is read up to what stops the number. -/
theorem exponentPart_append (h : IsTail tail e) (hrest : Stops rest) :
    exponentPart (tail ++ rest) = (if tail = [] then none else some e, rest) := by
  rcases h with ⟨rfl, -⟩ | ⟨ds, hds, hvalue, rfl⟩
  · exact exponentPart_stops hrest
  · obtain ⟨htake, hdrop⟩ := Numeral.takeWhile_digits hds.2 fun c hc => (hrest c hc).1
    have hempty : ds.isEmpty = false := by simpa using hds.1
    have hsign : Numeral.sign ((if e < 0 then '-' else '+') :: (ds ++ rest)) =
        (decide (e < 0), ds ++ rest) := by
      by_cases hneg : e < 0 <;> simp [hneg, Numeral.sign]
    have hsigned : (if decide (e < 0) = true then -(Numeral.valueOf ds : Int) else Numeral.valueOf ds) = e := by
      simp only [decide_eq_true_eq]
      omega
    have hread : exponentPart ('e' :: (if e < 0 then '-' else '+') :: (ds ++ rest)) = (some e, rest) := by
      unfold exponentPart
      dsimp only
      rw [if_pos (Or.inl rfl), hsign]
      dsimp only
      rw [htake, hdrop, hempty, if_neg Bool.false_ne_true, hsigned]
    exact hread

/-! ## Numbers -/

/-- A minus in front is taken off, and what follows is read in its parts. -/
theorem number_signed (negative : Bool) (hds : AreDigits ds) (hlead : NoLeadingZero ds) {more : List Char}
    (hmore : ∀ c, more.head? = some c → c.isDigit = false) :
    number ((if negative then ['-'] else []) ++ (ds ++ more)) =
      let (part, rest) := fractionPart more
      let (exponent, rest) := exponentPart rest
      if part.isEmpty ∧ exponent = none then
        if digitLimit < ds.length then none
        else some (.int (if negative then -(Numeral.valueOf ds : Int) else Numeral.valueOf ds), rest)
      else
        some (.float (Double.ofDecimal negative (Numeral.valueOf (ds ++ part))
          (exponent.getD 0 - part.length)), rest) := by
  have hempty : ¬ ds.isEmpty = true := by simpa using hds.1
  obtain ⟨c, others, hcons⟩ := List.exists_cons_of_ne_nil hds.1
  unfold number
  split
  next sign body hsign =>
    have hminus : (sign, body) = (negative, ds ++ more) := by
      rw [← hsign]
      cases negative with
      | true => rfl
      | false =>
        -- a digit is no minus
        split
        next heq =>
          rw [hcons] at heq
          have hc := hds.2 c (hcons ▸ List.mem_cons_self)
          rw [(List.cons.inj heq).1] at hc
          cases hc
        next => rfl
    cases hminus
    rw [wholePart_append hds hlead hmore]
    exact if_neg hempty

/-- Digits that nothing of a number follows are a whole number. -/
theorem number_whole (negative : Bool) (hds : AreDigits ds) (hlead : NoLeadingZero ds)
    (hlength : ds.length ≤ digitLimit) (hrest : Stops rest) :
    number ((if negative then ['-'] else []) ++ (ds ++ rest)) =
      some (.int (if negative then -(Numeral.valueOf ds : Int) else Numeral.valueOf ds), rest) := by
  have hnone : fractionPart rest = ([], rest) :=
    @fractionPart_append [] rest (fun _ h => nomatch h) fun c hc => ⟨(hrest c hc).1, (hrest c hc).2.1⟩
  rw [number_signed negative hds hlead fun c hc => (hrest c hc).1, hnone]
  dsimp only
  rw [exponentPart_stops hrest]
  dsimp only
  rw [if_pos ⟨rfl, rfl⟩, if_neg (by omega)]

/-- A number that is not written as a whole one: digits with a fraction or an exponent. -/
inductive IsReal : List Char → Nat → Int → Prop where
  | mk {whole part tail : List Char} {e : Int} (hwhole : AreDigits whole) (hlead : NoLeadingZero whole)
    (hpart : ∀ c ∈ part, c.isDigit = true) (htail : IsTail tail e) (hreal : part ≠ [] ∨ tail ≠ []) :
    IsReal (whole ++ (Numeral.fraction part ++ tail)) (Numeral.valueOf (whole ++ part)) (e - part.length)

variable {cs : List Char} {digits : Nat}

theorem IsReal.spells (h : IsReal cs digits e) : Numeral.Spells cs digits e := by
  obtain ⟨hwhole, -, hpart, htail, -⟩ := h
  exact Numeral.spells_fraction hwhole hpart htail.exponentPart

theorem number_real (negative : Bool) (h : IsReal cs digits e) (hrest : Stops rest) :
    number ((if negative then ['-'] else []) ++ (cs ++ rest)) =
      some (.float (Double.ofDecimal negative digits e), rest) := by
  obtain ⟨hwhole, hlead, hpart, htail, hreal⟩ := h
  next whole part tail e =>
  have hend : ∀ c, (Numeral.fraction part ++ (tail ++ rest)).head? = some c → c.isDigit = false := by
    cases part with
    | nil => exact fun c hc => (htail.stops hrest c hc).1
    | cons d more =>
      rintro c hc
      obtain rfl := Option.some.inj hc
      rfl
  rw [List.append_assoc, List.append_assoc, number_signed negative hwhole hlead hend,
    fractionPart_append hpart (htail.stops hrest)]
  dsimp only
  rw [exponentPart_append htail hrest]
  dsimp only
  by_cases hnone : tail = []
  · have he : e = 0 := by
      rcases htail with ⟨-, he⟩ | ⟨ds, -, -, heq⟩
      · exact he
      · rw [hnone] at heq
        cases heq
    have hpart' : ¬ (part.isEmpty = true ∧ (none : Option Int) = none) := by
      simpa [hnone] using hreal
    rw [if_pos hnone, if_neg hpart', he]
    rfl
  · rw [if_neg hnone, if_neg (by simp)]
    rfl

theorem isReal_pointed (hwhole : AreDigits whole) (hlead : NoLeadingZero whole) (hpart : AreDigits part) :
    ∃ m k, IsReal (whole ++ '.' :: part) m k := by
  have h := @IsReal.mk whole part [] 0 hwhole hlead hpart.2 (Or.inl ⟨rfl, rfl⟩) (Or.inl hpart.1)
  rw [Numeral.fraction, if_neg hpart.1, List.append_nil] at h
  exact ⟨_, _, h⟩

end JsonRead

/-! ## Layouts -/

/-- The library's own layout of a positive number is that of a number that is not whole. -/
theorem Layout.isReal_write {s : Scaled} (hdigits : s.digits ≠ 0) :
    ∃ m k, JsonRead.IsReal (Double.plainLayout.write s) m k := by
  have hds := areDigits_toDigits s.digits
  have hhead := head?_toDigits (Nat.pos_of_ne_zero hdigits)
  have hfigures : s.figures = Nat.toDigits 10 s.digits := rfl
  have hlead : s.lead = (Nat.toDigits 10 s.digits).length + s.exponent - 1 := rfl
  unfold write
  rw [hfigures, hlead]
  generalize Nat.toDigits 10 s.digits = ds at hds hhead
  generalize s.exponent = e
  obtain ⟨c, more, rfl⟩ := List.exists_cons_of_ne_nil hds.1
  dsimp only
  split
  next hplain =>
    split
    next =>
      have hdigits : AreDigits (c :: more ++ List.replicate e.natAbs '0') :=
        ⟨by simp, fun d hd => (List.mem_append.mp hd).elim (hds.2 d) isDigit_of_mem_zeros⟩
      exact JsonRead.isReal_pointed hdigits (Or.inr hhead) (by decide)
    next =>
      split
      next hleft =>
        obtain ⟨cut, hcut⟩ : ∃ cut, (c :: more).length - e.natAbs = cut + 1 :=
          ⟨(c :: more).length - e.natAbs - 1, by omega⟩
        rw [hcut]
        refine JsonRead.isReal_pointed ⟨by simp, fun d hd => hds.2 d (List.mem_of_mem_take hd)⟩
          (Or.inr hhead) ⟨?_, fun d hd => hds.2 d (List.mem_of_mem_drop hd)⟩
        rw [ne_eq, List.drop_eq_nil_iff]
        omega
      next hleft =>
        have hpart : AreDigits (List.replicate (((c :: more).length + e - 1).natAbs - 1) '0' ++ c :: more) :=
          ⟨by simp, fun d hd => (List.mem_append.mp hd).elim isDigit_of_mem_zeros (hds.2 d)⟩
        exact JsonRead.isReal_pointed (by decide) (Or.inl rfl) hpart
  next =>
    have hfirst : AreDigits [c] := ⟨by simp, by simpa using hds.2 c List.mem_cons_self⟩
    have htail : JsonRead.IsTail ('e' :: Double.plainLayout.exponentText ((c :: more).length + e - 1))
        ((c :: more).length + e - 1) :=
      Or.inr ⟨_, Whole.areDigits_figures 2 _, Whole.valueOf_figures 2 _, by rw [exponentText_eq]; rfl⟩
    have h := JsonRead.IsReal.mk hfirst (Or.inr hhead) (fun d hd => hds.2 d (List.mem_cons_of_mem c hd))
      htail (Or.inr (by simp))
    cases more with
    | nil => exact ⟨_, _, h⟩
    | cons d others => exact ⟨_, _, h⟩

/-! ## Texts -/

namespace Double

/-- The text of a finite number is that of one that is not whole. -/
theorem exists_isReal {d : Double} (h : d.isFinite = true) :
    ∃ cs m k, d.text.toList = (if d.isNegative then ['-'] else []) ++ cs ∧ JsonRead.IsReal cs m k ∧
      ofDecimal d.isNegative m k = d := by
  cases d with
  | nan => cases h
  | infinite negative => cases h
  | finite negative steps hheld =>
    obtain ⟨cs, m, k, htext, hreal⟩ : ∃ cs m k, (finite negative steps hheld).text =
        String.ofList ((if negative then ['-'] else []) ++ cs) ∧ JsonRead.IsReal cs m k := by
      rcases Nat.eq_zero_or_pos steps with rfl | hpos
      · obtain ⟨m, k, hreal⟩ := @JsonRead.isReal_pointed ['0'] ['0'] (by decide) (Or.inl rfl) (by decide)
        exact ⟨_, m, k, rfl, hreal⟩
      · obtain ⟨m, k, hreal⟩ := Layout.isReal_write (shortest_near hheld hpos).1
        refine ⟨_, m, k, ?_, hreal⟩
        simp only [text, textIn, if_neg hpos.ne']
    refine ⟨cs, m, k, by rw [htext, String.toList_ofList]; rfl, hreal, ?_⟩
    -- the same text is read as the number by the reader of numbers in general
    have hback := @ofText?_text (finite negative steps hheld) rfl
    rw [htext, Numeral.ofText?_spelled hreal.spells] at hback
    exact Option.some.inj hback

end Double

/-! ## Values -/

namespace JsonRead

variable {c : Char}

theorem word?_number (negative : Bool) (hc : c.isDigit = true) (cs : List Char) :
    word? ((if negative then ['-'] else []) ++ c :: cs) = none := by
  have hfirst : 'n' ≠ c ∧ 't' ≠ c ∧ 'f' ≠ c ∧ 'N' ≠ c ∧ 'I' ≠ c ∧ '-' ≠ c := by
    simpa using @forall_digit (fun c => 'n' ≠ c ∧ 't' ≠ c ∧ 'f' ≠ c ∧ 'N' ≠ c ∧ 'I' ≠ c ∧ '-' ≠ c)
      (by decide) c hc
  rw [word?, Option.map_eq_none_iff, List.find?_eq_none]
  cases negative <;> simp [words, hfirst]

/-- What starts as a number is read as one. -/
theorem value_number (negative : Bool) (hc : c.isDigit = true) (fuel : Nat) (cs : List Char) :
    value (fuel + 1) ((if negative then ['-'] else []) ++ c :: cs) =
      number ((if negative then ['-'] else []) ++ c :: cs) := by
  have hfirst : c ≠ '"' ∧ c ≠ '[' ∧ c ≠ '\x7b' := by
    simpa using @forall_digit (fun c => c ≠ '"' ∧ c ≠ '[' ∧ c ≠ '\x7b') (by decide) c hc
  rw [value, word?_number negative hc, Option.none_or]
  all_goals cases negative <;> simp [hfirst]

theorem value_int {n : Int} (hn : n.natAbs < Nat.pow 10 Whole.digitLimit) (fuel : Nat) (hrest : Stops rest) :
    value (fuel + 1) ((toString n).toList ++ rest) = some (.int n, rest) := by
  have hlength {k : Nat} (hk : 0 < k) (h : n.natAbs < Nat.pow 10 k) : (Nat.toDigits 10 n.natAbs).length ≤ k :=
    (Nat.length_toDigits_le_iff (by decide) hk).mpr h
  have hlimit : digitLimit = Whole.digitLimit := rfl
  rw [← hlimit] at hn
  have hread := number_whole (decide (n < 0)) (areDigits_toDigits n.natAbs) (noLeadingZero_toDigits n.natAbs)
    (@hlength digitLimit (by decide) hn) hrest
  obtain ⟨c, ds, hds⟩ := List.exists_cons_of_ne_nil (areDigits_toDigits n.natAbs).1
  have hc : c.isDigit = true := (areDigits_toDigits n.natAbs).2 c (hds ▸ List.mem_cons_self)
  have hvalue : (if decide (n < 0) = true then -(n.natAbs : Int) else n.natAbs) = n := by
    simp only [decide_eq_true_eq]
    omega
  rw [Numeral.valueOf_toDigits, hvalue, hds] at hread
  have hwhole := (value_number (decide (n < 0)) hc fuel (ds ++ rest)).trans hread
  simp only [decide_eq_true_eq] at hwhole
  rw [Double.toString_eq, String.toList_ofList, hds, List.append_assoc]
  exact hwhole

theorem value_double {d : Double} (h : d.isFinite = true) (fuel : Nat) (hrest : Stops rest) :
    value (fuel + 1) (d.text.toList ++ rest) = some (.float d, rest) := by
  obtain ⟨cs, m, k, htext, hreal, hvalue⟩ := Double.exists_isReal h
  obtain ⟨c, more, rfl, hc⟩ := hreal.spells.head
  have hread := number_real d.isNegative hreal hrest
  rw [hvalue] at hread
  rw [htext, List.append_assoc]
  exact (value_number d.isNegative hc fuel (more ++ rest)).trans hread

end JsonRead

end FaultDesk
