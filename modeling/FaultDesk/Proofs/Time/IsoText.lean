import FaultDesk.Proofs.Number.Figures
import FaultDesk.Proofs.Time.Days
import FaultDesk.Time.Iso

/-!
Stamps in UTC as texts. What is written of an instant is read back as that instant.
-/

namespace FaultDesk

/-! ## Padded numbers -/

namespace Date

variable {width v : Nat}

theorem pad_eq (width v : Nat) : pad width v = Whole.figures width v := by
  rw [Whole.figures_eq, Int.toNat_natCast]
  rfl

theorem areDigits_pad (width v : Nat) : AreDigits (pad width v) := by
  rw [pad_eq]
  exact Whole.areDigits_figures width v

theorem length_pad (hwidth : 0 < width) (h : v < 10 ^ width) : (pad width v).length = width := by
  have hle : (Nat.toDigits 10 v).length ≤ width :=
    (Nat.length_toDigits_le_iff (by decide) hwidth).mpr h
  rw [pad_eq, Whole.length_figures, Int.toNat_natCast]
  exact Nat.max_eq_left hle

end Date

namespace Iso

variable {width v left : Nat} {follow : Bool} {parts : List Nat} {rest : List Char}

theorem digits_append {ds : List Char} (h : ∀ c ∈ ds, c.isDigit = true) (rest : List Char) :
    digits ds.length (ds ++ rest) = some (Numeral.valueOf ds, rest) := by
  induction ds with
  | nil => rfl
  | cons c ds ih =>
    have hc : c.isDigit = true := h c List.mem_cons_self
    have hds := ih fun d hd => h d (List.mem_cons_of_mem c hd)
    rw [List.length_cons, List.cons_append, digits, if_pos hc, hds, Numeral.valueOf_cons]
    rfl

theorem digits_pad (hwidth : 0 < width) (h : v < 10 ^ width) (rest : List Char) :
    digits width (Date.pad width v ++ rest) = some (v, rest) := by
  have hread := digits_append (Date.areDigits_pad width v).2 rest
  rw [Date.length_pad hwidth h, Date.pad_eq, Whole.valueOf_figures, ← Date.pad_eq] at hread
  exact hread

/-- A padded number begins with a digit. -/
theorem head?_pad (width v : Nat) (rest : List Char) :
    ∃ c, (Date.pad width v ++ rest).head? = some c ∧ c.isDigit = true := by
  obtain ⟨hne, hdigits⟩ := Date.areDigits_pad width v
  generalize Date.pad width v = ds at hne hdigits
  cases ds with
  | nil => exact absurd rfl hne
  | cons c ds => exact ⟨c, rfl, hdigits c List.mem_cons_self⟩

/-! ## Dates -/

theorem date_textChars {d : Date} (hdate : Calendar.isDate d.year d.month d.day = true)
    (hmonth : d.month ≤ 12) : date d.textChars = some d.number := by
  have hyear : d.year < 10 ^ 4 := by
    simp only [Calendar.isDate, Bool.and_eq_true, decide_eq_true_eq] at hdate
    omega
  have hday : d.day < 10 ^ 2 := by
    have hle := Calendar.daysIn_le d.year d.month
    simp only [Calendar.isDate, Bool.and_eq_true, decide_eq_true_eq] at hdate
    omega
  obtain ⟨c, hhead, hc⟩ := head?_pad 2 d.month ('-' :: Date.pad 2 d.day)
  have hweek : c ≠ 'W' := by
    rintro rfl
    simp at hc
  have hdayread := @digits_pad 2 d.day (by decide) hday []
  rw [List.append_nil] at hdayread
  unfold date Date.textChars
  rw [List.append_assoc, digits_pad (by decide) hyear]
  simp [hhead, hweek, @digits_pad 2 d.month (by decide) (by omega),
    hdayread, hdate]

theorem length_textChars {d : Date} (hdate : Calendar.isDate d.year d.month d.day = true)
    (hmonth : d.month ≤ 12) : d.textChars.length = 10 := by
  have hdays := Calendar.daysIn_le d.year d.month
  simp only [Calendar.isDate, Bool.and_eq_true, decide_eq_true_eq] at hdate
  have hyear := @Date.length_pad 4 d.year (by decide) (by omega)
  have hmonth := @Date.length_pad 2 d.month (by decide) (by omega)
  have hday := @Date.length_pad 2 d.day (by decide) (by omega)
  simp [Date.textChars, hyear, hmonth, hday]

/-- A date with hyphens ends behind its tenth character. -/
theorem dateLength_textChars {d : Date} (hdate : Calendar.isDate d.year d.month d.day = true)
    (hmonth : d.month ≤ 12) (rest : List Char) : dateLength (d.textChars ++ rest) = some 10 := by
  have hlength := length_textChars hdate hmonth
  have hyear : (Date.pad 4 d.year).length = 4 := by
    simp only [Calendar.isDate, Bool.and_eq_true, decide_eq_true_eq] at hdate
    exact Date.length_pad (by decide) (by omega)
  obtain ⟨c, hhead, hc⟩ := head?_pad 2 d.month ('-' :: Date.pad 2 d.day ++ rest)
  have hweek : c ≠ 'W' := by
    rintro rfl
    simp at hc
  have hsplit : d.textChars ++ rest =
      Date.pad 4 d.year ++ '-' :: (Date.pad 2 d.month ++ ('-' :: Date.pad 2 d.day ++ rest)) := by
    simp [Date.textChars]
  have hfour : (d.textChars ++ rest)[4]? = some '-' := by
    rw [hsplit, List.getElem?_append_right (Nat.le_of_eq hyear), hyear]
    rfl
  have hfive : (d.textChars ++ rest)[5]? = some c := by
    rw [hsplit, List.getElem?_append_right (by omega), hyear, ← hhead, List.head?_eq_getElem?]
    rfl
  have hseven : (d.textChars ++ rest).length ≠ 7 := by
    rw [List.length_append]
    omega
  simp only [dateLength, if_neg hseven, hfour, hfive, if_true, Option.some.injEq, if_neg hweek]

/-! ## Clock times -/

theorem clockFrom_end {colons : Option Bool} (h : v < 10 ^ 2) :
    clockFrom follow (left + 1) colons parts (Date.pad 2 v) = some ⟨parts ++ [v], 0, follow⟩ := by
  have hread := @digits_pad 2 v (by decide) h []
  rw [List.append_nil] at hread
  rw [clockFrom, hread]
  rfl

theorem clockFrom_colon {colons : Option Bool} (h : v < 10 ^ 2) (hcolons : colons.getD true = true)
    (hrest : rest ≠ []) : clockFrom follow (left + 1) colons parts (Date.pad 2 v ++ ':' :: rest) =
      clockFrom follow left (some true) (parts ++ [v]) rest := by
  have hread := @digits_pad 2 v (by decide) h (':' :: rest)
  rw [clockFrom, hread]
  simp [hcolons, hrest]

theorem clockFrom_fraction {f : Nat} (h : v < 10 ^ 2) (hf : f < 10 ^ 6) :
    clockFrom follow (left + 1) (some true) parts (Date.pad 2 v ++ '.' :: Date.pad 6 f) =
      some ⟨parts ++ [v], f, follow⟩ := by
  have hread := @digits_pad 2 v (by decide) h ('.' :: Date.pad 6 f)
  have hfraction := @digits_pad 6 f (by decide) hf []
  have hlength := @Date.length_pad 6 f (by decide) hf
  rw [List.append_nil] at hfraction
  rw [clockFrom, hread]
  simp [(Date.areDigits_pad 6 f).1, fraction, hlength, hfraction]

/-- The clock of a day with its hours, minutes, seconds and fraction. -/
theorem clockFrom_clockChars (micros : Nat) (hday : micros < 86400000000) :
    clockFrom follow 3 none [] (Stamp.clockChars micros false) =
      some ⟨[micros / 1000000 / 3600, micros / 1000000 / 60 % 60, micros / 1000000 % 60],
        micros % 1000000, follow⟩ := by
  have hhours : micros / 1000000 / 3600 < 10 ^ 2 := by omega
  have hminutes : micros / 1000000 / 60 % 60 < 10 ^ 2 := by omega
  have hseconds : micros / 1000000 % 60 < 10 ^ 2 := by omega
  have hfraction : micros % 1000000 < 10 ^ 6 := by omega
  unfold Stamp.clockChars
  dsimp only
  rw [List.append_assoc, List.cons_append, List.append_assoc, List.cons_append]
  rw [clockFrom_colon hhours rfl (by simp [(Date.areDigits_pad 2 _).1]),
    clockFrom_colon hminutes rfl (by simp [(Date.areDigits_pad 2 _).1])]
  split
  next hzero =>
    rw [List.append_nil, clockFrom_end hseconds, hzero.1]
    rfl
  next =>
    rw [clockFrom_fraction hseconds hfraction]
    rfl

theorem mem_clockChars {micros : Nat} {c : Char} (h : c ∈ Stamp.clockChars micros false) :
    c.isDigit = true ∨ c = ':' ∨ c = '.' := by
  have hpad {width v : Nat} (hc : c ∈ Date.pad width v) : c.isDigit = true :=
    (Date.areDigits_pad width v).2 c hc
  unfold Stamp.clockChars at h
  dsimp only at h
  simp only [List.mem_append, List.mem_cons] at h
  split at h
  all_goals
    simp only [List.mem_cons, List.not_mem_nil, or_false] at h
    grind

/-- The clock of a day is read together with the offset of UTC. -/
theorem time_clockChars {micros : Nat} (hday : micros < 86400000000) :
    time (Stamp.clockChars micros false ++ Stamp.offsetChars 0) = some (micros, some 0) := by
  have hmark : ∀ c ∈ Stamp.clockChars micros false,
      (!(c == '+' || c == '-' || c == 'Z')) = true := by
    intro c hc
    rcases mem_clockChars hc with hdigit | rfl | rfl
    · exact @forall_digit (fun c => !(c == '+' || c == '-' || c == 'Z')) (by decide) c hdigit
    · rfl
    · rfl
  have hzone : Stamp.offsetChars 0 = '+' :: ['0', '0', ':', '0', '0'] := by decide
  have hoffset : offset false ['0', '0', ':', '0', '0'] = some 0 := by decide
  have hregion : (Stamp.clockChars micros false ++ Stamp.offsetChars 0).takeWhile
      (fun c => !(c == '+' || c == '-' || c == 'Z')) = Stamp.clockChars micros false := by
    rw [List.takeWhile_append_of_pos hmark, hzone]
    simp
  have hrest : (Stamp.clockChars micros false ++ Stamp.offsetChars 0).dropWhile
      (fun c => !(c == '+' || c == '-' || c == 'Z')) = '+' :: ['0', '0', ':', '0', '0'] := by
    rw [List.dropWhile_append_of_pos hmark, hzone]
    rfl
  have hspan : Clock.span? ⟨[micros / 1000000 / 3600, micros / 1000000 / 60 % 60,
      micros / 1000000 % 60], micros % 1000000, true⟩ = some micros := by
    simp only [Clock.span?, Clock.seconds, Clock.part, List.getD_cons_zero, List.getD_cons_succ]
    have hseconds (t : Nat) : t / 3600 * 3600 + t / 60 % 60 * 60 + t % 60 = t := by omega
    rw [if_pos (by omega), hseconds, Nat.div_add_mod']
  unfold time
  simp only [hregion, hrest, clockFrom_clockChars micros hday]
  simp [hoffset, hspan]

end Iso

namespace Stamp

variable {i : Instant}

theorem date_spec (hpast : 0 ≤ i) (hlimit : i < Instant.limit) :
    Calendar.isDate (utc i).date.year (utc i).date.month (utc i).date.day = true ∧
      (utc i).date.month ≤ 12 ∧ (utc i).date.number = (i / Span.day).toNat := by
  refine Date.ofNumber_spec ?_
  have hlt : i / Span.day < Calendar.dayLimit :=
    Int.ediv_lt_of_lt_mul (by decide) hlimit
  have hnonneg : 0 ≤ i / Span.day := Int.ediv_nonneg hpast (by decide)
  exact (Int.toNat_lt hnonneg).mpr hlt

/-- What is written of an instant in UTC is read back. -/
theorem read?_text_utc (hpast : 0 ≤ i) (hlimit : i < Instant.limit) :
    read? (utc i).text = some (utc i) := by
  obtain ⟨hdate, hmonth, hnumber⟩ := date_spec hpast hlimit
  have hclock : (utc i).clock < 86400000000 := by
    have hpos : 0 ≤ i % Span.day := Int.emod_nonneg _ (by decide)
    have hlt : i % Span.day < Span.day := Int.emod_lt_of_pos _ (by decide)
    exact (Int.toNat_lt hpos).mpr hlt
  have hwall : (((i / Span.day).toNat : Int)) * Span.day + ((utc i).clock : Int) = i := by
    have hday : 0 ≤ i / Span.day := Int.ediv_nonneg hpast (by decide)
    have hpos : 0 ≤ i % Span.day := Int.emod_nonneg _ (by decide)
    change ((i / Span.day).toNat : Int) * Span.day + ((i % Span.day).toNat : Int) = i
    rw [Int.toNat_of_nonneg hday, Int.toNat_of_nonneg hpos]
    exact Int.ediv_mul_add_emod i Span.day
  have hlength := Iso.length_textChars hdate hmonth
  have htext : (utc i).text.toList = (utc i).date.textChars ++
      'T' :: (clockChars (utc i).clock false ++ offsetChars 0) := by
    simp [text, textWith, utc]
  unfold read?
  simp only [htext]
  rw [if_neg (by rw [List.length_append]; omega), Iso.dateLength_textChars hdate hmonth]
  simp only [bind, Option.bind]
  rw [List.take_left' hlength, List.drop_left' hlength, Iso.date_textChars hdate hmonth, hnumber]
  simp only [Iso.time_clockChars hclock, hwall]
  rfl

theorem zulu_not_mem_text_utc (i : Instant) : 'Z' ∉ (utc i).text.toList := by
  have hpad {width v : Nat} : 'Z' ∉ Date.pad width v := by
    intro h
    have hdigit := (Date.areDigits_pad width v).2 _ h
    simp at hdigit
  have hdate : 'Z' ∉ (utc i).date.textChars := by
    simp [Date.textChars, hpad]
  have hclock : 'Z' ∉ clockChars (utc i).clock false := by
    intro h
    rcases Iso.mem_clockChars h with hdigit | hcolon | hpoint
    · simp at hdigit
    · simp at hcolon
    · simp at hpoint
  have hoffset : 'Z' ∉ offsetChars 0 := by decide
  simp [text, textWith, utc] at hdate hclock ⊢
  simp [hdate, hclock, hoffset]

end Stamp

end FaultDesk
