import Mathlib.Data.List.Nodup
import FaultDesk.Proofs.Condition.KeyText
import FaultDesk.Proofs.Datum.Entries
import FaultDesk.Proofs.Time.IsoText
import FaultDesk.Proofs.Timer.Durable

/-!
Keys that are read back. The text that a value has in keys is its own text in keys: a whole number is
read from its digits, another number keeps its spelling, and what is shown of any other value is no
number at all. So the three texts of a record in the table make up the key that the record is found
under.
-/

namespace FaultDesk

namespace Numeral

/-! ## Texts that are no whole numbers -/

theorem sign_of_head {c : Char} (hplus : c ≠ '+') (hminus : c ≠ '-') (rest : List Char) :
    sign (c :: rest) = (false, c :: rest) := by
  unfold sign
  split
  next heq => exact absurd (List.cons.inj heq).1 hminus
  next heq => exact absurd (List.cons.inj heq).1 hplus
  next => rfl

/-- Digits are not read when something else than a point or an exponent follows them. -/
theorem unsigned_stopped {negative : Bool} {ds rest : List Char} {c : Char}
    (hds : ∀ d ∈ ds, d.isDigit = true) (hdigit : c.isDigit = false) (hpoint : c ≠ '.')
    (hstop : ds = [] ∨ exponentPart (c :: rest) = none) : unsigned negative (ds ++ c :: rest) = none := by
  obtain ⟨htake, hdrop⟩ := @takeWhile_digits (c :: rest) ds hds (by
    intro d hd
    obtain rfl := Option.some.inj hd
    exact hdigit)
  unfold unsigned
  rw [htake, hdrop]
  dsimp only
  split
  next heq => exact absurd (List.cons.inj heq).1 hpoint
  next =>
    rcases hstop with rfl | hexponent
    · rfl
    · rw [hexponent, Option.map_none, ite_self]

theorem wholeText?_of_unsigned {cs : List Char} (h : unsigned (sign cs).1 (sign cs).2 = none) :
    (plainDouble? cs).bind Datum.wholeText? = none := by
  unfold plainDouble?
  dsimp only
  split
  next => rfl
  next =>
    split
    next => rfl
    next => rw [h, Option.map_none, Option.bind_none]

end Numeral

namespace Datum

/-- A text that is no whole number, without blanks at its ends, is its own text in keys. -/
theorem normalOfText_of_unread {cs : List Char} (hstripped : Text.stripped cs = cs)
    (hunread : (Numeral.plainDouble? ((Numeral.asciiDigits cs).filter (· ≠ '_'))).bind wholeText? = none) :
    normalOfText (String.ofList cs) = String.ofList cs := by
  have hstrip : Text.strip (String.ofList cs) = String.ofList cs := by
    rw [Text.strip, String.toList_ofList, hstripped]
  have hnone : (Double.ofText? (String.ofList cs)).bind wholeText? = none := by
    unfold Double.ofText?
    rw [String.toList_ofList, hstripped]
    dsimp only
    split
    next => exact hunread
    next => rfl
  rw [normalOfText, hstrip, hnone, Option.getD_none]

/-- A character that no number begins with. -/
def isOpening (c : Char) : Bool := !isBlank c && !isDecimal c && c ∉ "_.+-".toList

theorem normalOfText_of_opening {a b : Char} {mid : List Char} (ha : isOpening a = true)
    (hb : isBlank b = false) :
    normalOfText (String.ofList (a :: (mid ++ [b]))) = String.ofList (a :: (mid ++ [b])) := by
  simp only [isOpening, Bool.and_eq_true, Bool.not_eq_true', decide_eq_true_eq] at ha
  obtain ⟨⟨hblank, hdecimal⟩, hmark⟩ := ha
  simp only [String.reduceToList, List.mem_cons, List.not_mem_nil, or_false, not_or] at hmark
  obtain ⟨hunderscore, hpoint, hplus, hminus⟩ := hmark
  have hdigit : a.isDigit = false := by
    cases h : a.isDigit with
    | false => rfl
    | true =>
      rw [isDecimal_of_isDigit h] at hdecimal
      cases hdecimal
  have hvalue : decimalValue? a = none := by
    simpa [isDecimal] using hdecimal
  refine normalOfText_of_unread (Text.stripped_of_ends ?_ ?_) ?_
  · intro c hc
    obtain rfl := Option.some.inj hc
    exact hblank
  · intro c hc
    rw [← List.cons_append, List.getLast?_concat] at hc
    obtain rfl := Option.some.inj hc
    exact hb
  · have hread : (Numeral.asciiDigits (a :: (mid ++ [b]))).filter (· ≠ '_') =
        a :: (Numeral.asciiDigits (mid ++ [b])).filter (· ≠ '_') := by
      simp [Numeral.asciiDigits, hvalue, hunderscore]
    rw [hread]
    refine Numeral.wholeText?_of_unsigned ?_
    rw [Numeral.sign_of_head hplus hminus]
    exact @Numeral.unsigned_stopped _ [] _ _ (by simp) hdigit hpoint (Or.inl rfl)

/-! ## Dates and stamps -/

/-- What begins with a date is no number. -/
theorem normalOfText_of_date (d : Date) {rest : List Char}
    (hlast : ∀ c, (d.textChars ++ rest).getLast? = some c → isBlank c = false) :
    normalOfText (String.ofList (d.textChars ++ rest)) = String.ofList (d.textChars ++ rest) := by
  obtain ⟨hyear, hdigits⟩ := Date.areDigits_pad 4 d.year
  obtain ⟨behind, hsplit⟩ : ∃ behind, d.textChars ++ rest = Date.pad 4 d.year ++ '-' :: behind :=
    ⟨_, by rw [Date.textChars, List.append_assoc, List.append_assoc]; rfl⟩
  rw [hsplit] at hlast ⊢
  generalize Date.pad 4 d.year = ds at hyear hdigits hlast
  obtain ⟨c, more, rfl⟩ := List.exists_cons_of_ne_nil hyear
  have hc : c.isDigit = true := hdigits c List.mem_cons_self
  refine normalOfText_of_unread (Text.stripped_of_ends ?_ hlast) ?_
  · intro d hd
    obtain rfl := Option.some.inj hd
    exact isBlank_of_isDigit hc
  · have hread : ∃ behind', (Numeral.asciiDigits (c :: more ++ '-' :: behind)).filter (· ≠ '_') =
        c :: more ++ '-' :: behind' := by
      refine ⟨(Numeral.asciiDigits behind).filter (· ≠ '_'), ?_⟩
      have hfront : Numeral.asciiDigits (c :: more) = c :: more := Numeral.asciiDigits_digits hdigits
      have hkept : (c :: more).filter (· ≠ '_') = c :: more :=
        Numeral.filter_underscores fun d hd => Numeral.ne_underscore_of_isDigit (hdigits d hd)
      rw [Numeral.asciiDigits, List.map_append, List.filter_append]
      rw [Numeral.asciiDigits] at hfront
      rw [hfront, hkept]
      rfl
    obtain ⟨behind', hread⟩ := hread
    rw [hread]
    have hhyphen : Numeral.exponentPart ('-' :: behind') = none := by
      unfold Numeral.exponentPart
      exact if_neg (by decide)
    refine Numeral.wholeText?_of_unsigned ?_
    have hsign : c ≠ '+' ∧ c ≠ '-' := by
      constructor <;> rintro rfl <;> cases hc
    rw [List.cons_append, Numeral.sign_of_head hsign.1 hsign.2]
    exact Numeral.unsigned_stopped hdigits (by decide) (by decide) (Or.inr hhyphen)

/-- None of the characters of a clock and an offset is blank. -/
theorem isBlank_of_mem_clock {micros : Nat} {c : Char}
    (h : c ∈ Stamp.clockChars micros false ∨ ∃ o, c ∈ Stamp.offsetChars o) : isBlank c = false := by
  have hpad {width v : Nat} (hc : c ∈ Date.pad width v) : c.isDigit = true :=
    (Date.areDigits_pad width v).2 c hc
  have hmark : c.isDigit = true ∨ c ∈ ":.+-".toList := by
    rcases h with hclock | ⟨o, hoffset⟩
    · rcases Iso.mem_clockChars hclock with hdigit | rfl | rfl
      · exact Or.inl hdigit
      · exact Or.inr (by decide)
      · exact Or.inr (by decide)
    · unfold Stamp.offsetChars at hoffset
      simp only [List.mem_append, List.mem_cons] at hoffset
      simp only [String.reduceToList, List.mem_cons]
      repeat' split at hoffset
      all_goals
        simp only [List.mem_cons, List.not_mem_nil, or_false] at hoffset
        grind
  rcases hmark with hdigit | hmark
  · exact isBlank_of_isDigit hdigit
  · simpa using List.all_eq_true.mp (show (":.+-".toList.all fun c => !isBlank c) = true by decide) c hmark

theorem mem_of_getLast?_append {front back : List Char} (hne : back ≠ []) {c : Char}
    (h : (front ++ back).getLast? = some c) : c ∈ back := by
  rw [List.getLast?_append_of_ne_nil front hne] at h
  exact List.mem_of_getLast? h

theorem clockChars_ne_nil (micros : Nat) : Stamp.clockChars micros false ≠ [] := by
  obtain ⟨hne, -⟩ := Date.areDigits_pad 2 (micros / 1000000 / 3600)
  unfold Stamp.clockChars
  dsimp only
  simp [hne]

theorem normalOfText_shown_date (d : Date) : normalOfText d.text = d.text := by
  have hsplit : d.textChars ++ [] =
      (Date.pad 4 d.year ++ '-' :: (Date.pad 2 d.month ++ ['-'])) ++ Date.pad 2 d.day := by
    simp [Date.textChars]
  obtain ⟨hne, hdigits⟩ := Date.areDigits_pad 2 d.day
  have h := @normalOfText_of_date d [] (by
    intro c hc
    rw [hsplit] at hc
    exact isBlank_of_isDigit (hdigits c (mem_of_getLast?_append hne hc)))
  rwa [List.append_nil] at h

theorem normalOfText_shown_stamp (s : Stamp) : normalOfText (s.textWith ' ') = s.textWith ' ' := by
  obtain ⟨back, hback, hback'⟩ : ∃ back, back = s.offset.elim [] Stamp.offsetChars ∧
      s.textWith ' ' = String.ofList (s.date.textChars ++ (' ' :: (Stamp.clockChars s.clock false ++ back))) := by
    refine ⟨_, rfl, ?_⟩
    unfold Stamp.textWith
    cases s.offset with
    | none => simp
    | some o => simp
  rw [hback']
  refine normalOfText_of_date s.date fun c hc => ?_
  have hbehind : Stamp.clockChars s.clock false ++ back ≠ [] := by
    simp [clockChars_ne_nil]
  rw [← List.singleton_append (x := ' '), ← List.append_assoc] at hc
  refine @isBlank_of_mem_clock s.clock c ?_
  rcases List.mem_append.mp (mem_of_getLast?_append hbehind hc) with hclock | hoffset
  · exact Or.inl hclock
  · rw [hback] at hoffset
    cases ho : s.offset with
    | none =>
      rw [ho] at hoffset
      cases hoffset
    | some o =>
      rw [ho] at hoffset
      exact Or.inr ⟨o, hoffset⟩

/-! ## Containers and octets -/

/-- A container is shown between two brackets. -/
theorem shownInside_bracketed {d : Datum}
    (h : (∃ xs, d = .list xs) ∨ (∃ xs, d = .tuple xs) ∨ (∃ x xs, d = .set (x :: xs)) ∨
      ∃ es, d = .mapping es) :
    ∃ a mid b, d.shownInside = String.ofList (a :: (mid ++ [b])) ∧ isOpening a = true ∧
      isBlank b = false := by
  -- the text between the brackets does not matter
  have hbrackets (front back inside : String) (a b : Char) (hfront : front.toList = [a])
      (hback : back.toList = [b]) :
      front ++ inside ++ back = String.ofList (a :: (inside.toList ++ [b])) := by
    rw [← String.toList_inj]
    simp [hfront, hback]
  rcases h with ⟨xs, rfl⟩ | ⟨xs, rfl⟩ | ⟨x, xs, rfl⟩ | ⟨es, rfl⟩
  · exact ⟨'[', _, ']', hbrackets "[" "]" _ _ _ rfl rfl, by decide, by decide⟩
  · cases xs with
    | nil => exact ⟨'(', _, ')', hbrackets "(" ")" _ _ _ rfl rfl, by decide, by decide⟩
    | cons x xs =>
      cases xs with
      | nil =>
        have hsingle : (tuple [x]).shownInside = "(" ++ (x.shownInside ++ ",") ++ ")" := by
          show "(" ++ x.shownInside ++ ",)" = _
          rw [← String.toList_inj]
          simp
        exact ⟨'(', _, ')', hsingle.trans (hbrackets "(" ")" _ _ _ rfl rfl), by decide, by decide⟩
      | cons y ys => exact ⟨'(', _, ')', hbrackets "(" ")" _ _ _ rfl rfl, by decide, by decide⟩
  · exact ⟨'\x7b', _, '\x7d', hbrackets "\x7b" "\x7d" _ _ _ rfl rfl, by decide, by decide⟩
  · exact ⟨'\x7b', _, '\x7d', hbrackets "\x7b" "\x7d" _ _ _ rfl rfl, by decide, by decide⟩

theorem normalOfText_shown_octets (bs : List UInt8) : normalOfText (Shown.octets bs) = Shown.octets bs := by
  have hmark : ∀ cs, Text.quoteMark cs = '"' ∨ Text.quoteMark cs = '\x27' := by
    intro cs
    unfold Text.quoteMark
    split
    next => exact Or.inl rfl
    next => exact Or.inr rfl
  unfold Shown.octets
  dsimp only
  rw [← List.cons_append]
  refine normalOfText_of_opening (by decide) ?_
  rcases hmark (bs.map fun b => Char.ofNat b.toNat) with h | h
  · rw [h]
    decide
  · rw [h]
    decide

/-! ## Any value -/

variable {v : Datum} {s : String}

/-- The digits of a whole number are their own text in keys. -/
theorem normalOfText_whole {x : Double} {n : Int} (hwhole : x.isWhole = true)
    (hn : x.whole? = some n) : normalOfText (toString n) = toString n := by
  obtain ⟨y, hy, heq⟩ := Double.ofText?_whole hwhole hn
  have hywhole : y.isWhole = true := Double.isWhole_of_eq heq ▸ hwhole
  have hynan : y.isNan = false := by
    cases y with
    | nan => cases hywhole
    | _ => rfl
  have hnumber : (text (toString n)).number? = .ok (some y) := by
    rw [number?, hy]
    simp [hynan]
  obtain ⟨m, hm, htext⟩ := normalText_of_whole hnumber hywhole
  rw [Double.whole?_of_eq heq, hn] at hm
  rw [normalText, ← Option.some.inj hm] at htext
  exact Except.ok.inj htext

theorem normalOfText_normalOfText (s : String) : normalOfText (normalOfText s) = normalOfText s := by
  have hread : Double.ofText? (Text.strip s) = Double.ofText? s := Double.ofText?_strip s
  have hstrip : Text.strip (Text.strip s) = Text.strip s := by
    rw [Text.strip, Text.toList_strip, Text.stripped_stripped, Text.strip]
  cases hwhole : (Double.ofText? (Text.strip s)).bind wholeText? with
  | none =>
    have hs : normalOfText s = Text.strip s := by
      rw [normalOfText, hwhole, Option.getD_none]
    rw [hs, normalOfText, hstrip, hwhole, Option.getD_none]
  | some w =>
    have hs : normalOfText s = w := by
      rw [normalOfText, hwhole, Option.getD_some]
    obtain ⟨x, -, hx⟩ := Option.bind_eq_some_iff.mp hwhole
    unfold wholeText? at hx
    split at hx
    next h =>
      obtain ⟨n, hn, rfl⟩ := Option.map_eq_some_iff.mp hx
      rw [hs]
      exact normalOfText_whole h hn
    next => cases hx

theorem normalOfText_of_number {x : Double} (h : v.number? = .ok (some x)) (hs : v.normalText = .ok s) :
    normalOfText s = s := by
  cases hwhole : x.isWhole with
  | true =>
    obtain ⟨n, hn, htext⟩ := normalText_of_whole h hwhole
    rw [htext] at hs
    rw [← Except.ok.inj hs]
    exact normalOfText_whole hwhole hn
  | false =>
    obtain ⟨htext, hread⟩ := normalText_of_not_whole h hwhole
    rw [htext] at hs
    rw [← Except.ok.inj hs]
    have hstrip : Text.strip (Text.strip v.shown) = Text.strip v.shown := by
      rw [Text.strip, Text.toList_strip, Text.stripped_stripped, Text.strip]
    rw [normalOfText, hstrip, hread, Option.bind_some, wholeText?_of_not_whole hwhole, Option.getD_none]

theorem nan_text (negative : Bool) (payload : Nat) :
    ∃ ds, (∀ c ∈ ds, c.isDigit = true) ∧ (Decimal.nan negative false payload).text =
      String.ofList ((if negative then ['-'] else []) ++ 'N' :: 'a' :: 'N' :: ds) := by
  refine ⟨if payload = 0 then [] else Nat.toDigits 10 payload, ?_, ?_⟩
  · intro c hc
    split at hc
    next => cases hc
    next => exact (areDigits_toDigits payload).2 c hc
  · rw [← String.toList_inj]
    cases negative <;> by_cases h : payload = 0 <;> simp [Decimal.text, h]

/-- What is no number keeps its word, and with it its payload. -/
theorem normalOfText_shown_nan (negative : Bool) (payload : Nat) :
    normalOfText (Decimal.nan negative false payload).text = (Decimal.nan negative false payload).text := by
  obtain ⟨ds, hds, htext⟩ := nan_text negative payload
  rw [htext]
  -- whatever is true of these characters is true of all in the text
  have hall {p : Char → Bool} (hp : "0123456789-Na".toList.all p = true) {c : Char}
      (hc : c ∈ (if negative then ['-'] else []) ++ 'N' :: 'a' :: 'N' :: ds) : p c = true := by
    refine List.all_eq_true.mp hp c ?_
    have hdigit : c ∈ ds → c ∈ "0123456789".toList := fun h =>
      of_decide_eq_true (@forall_digit (fun c => decide (c ∈ "0123456789".toList)) (by decide) c (hds c h))
    cases negative <;> simp at hc hdigit ⊢ <;> grind
  refine normalOfText_of_unread (Text.stripped_eq_self fun c hc => ?_) ?_
  · simpa using @hall (fun c => !isBlank c) (by decide) c hc
  · have hascii : Numeral.asciiDigits ((if negative then ['-'] else []) ++ 'N' :: 'a' :: 'N' :: ds) =
        (if negative then ['-'] else []) ++ 'N' :: 'a' :: 'N' :: ds :=
      Numeral.asciiDigits_eq_self fun c hc => of_decide_eq_true (@hall
        (fun c => decide (((decimalValue? c).map fun v => Char.ofNat (48 + v)).getD c = c)) (by decide) c hc)
    have hplain : ∀ c ∈ (if negative then ['-'] else []) ++ 'N' :: 'a' :: 'N' :: ds, c ≠ '_' :=
      fun c hc => of_decide_eq_true (@hall (fun c => decide (c ≠ '_')) (by decide) c hc)
    rw [hascii, Numeral.filter_underscores hplain]
    refine Numeral.wholeText?_of_unsigned ?_
    have hsign : Numeral.sign ((if negative then ['-'] else []) ++ 'N' :: 'a' :: 'N' :: ds) =
        (negative, 'N' :: 'a' :: 'N' :: ds) := by
      cases negative with
      | true => rfl
      | false => exact Numeral.sign_of_head (by decide) (by decide) _
    rw [hsign]
    exact @Numeral.unsigned_stopped _ [] _ _ (by simp) (by decide) (by decide) (Or.inl rfl)

/-- The text of a value in keys is its own text in keys. -/
theorem normalText_settled (hs : v.normalText = .ok s) : normalOfText s = s := by
  have hother (hkind : v.normalText = v.written) (hshown : normalOfText v.shown = v.shown) :
      normalOfText s = s := by
    rw [hkind] at hs
    rw [← shown_of_written hs]
    exact hshown
  have hbracketed (hkind : v.normalText = v.written) (hshown : v.shown = v.shownInside)
      (h : (∃ xs, v = .list xs) ∨ (∃ xs, v = .tuple xs) ∨ (∃ x xs, v = .set (x :: xs)) ∨
        ∃ es, v = .mapping es) : normalOfText s = s := by
    obtain ⟨a, mid, b, htext, ha, hb⟩ := shownInside_bracketed h
    refine hother hkind ?_
    rw [hshown, htext]
    exact normalOfText_of_opening ha hb
  cases v with
  | truth b =>
    obtain rfl := Except.ok.inj hs
    cases b <;> decide +kernel
  | int n =>
    cases hn : Double.ofInt n with
    | infinite negative =>
      rw [normalText, hn] at hs
      cases hs
    | nan =>
      have hnumber := Double.isNan_ofInt n
      rw [hn] at hnumber
      cases hnumber
    | finite negative steps hheld =>
      refine normalOfText_of_number (v := .int n) (x := .finite negative steps hheld) ?_ hs
      rw [number?, hn]
      rfl
  | float d =>
    cases hnan : d.isNan with
    | true =>
      cases d with
      | nan =>
        obtain rfl := Except.ok.inj hs
        decide +kernel
      | _ => cases hnan
    | false =>
      have hnumber : (float d).number? = .ok (some d) := by
        rw [number?, hnan]
        rfl
      exact normalOfText_of_number hnumber hs
  | decimal d =>
    cases d with
    | nan negative signaling payload =>
      cases signaling with
      | true => cases hs
      | false =>
        obtain rfl := Except.ok.inj hs
        exact normalOfText_shown_nan negative payload
    | infinite negative =>
      exact normalOfText_of_number (v := .decimal (.infinite negative)) (x := .infinite negative) rfl hs
    | finite negative digits exponent =>
      refine normalOfText_of_number (v := .decimal (.finite negative digits exponent))
        (x := .ofDecimal negative digits exponent) ?_ hs
      rw [number?, Decimal.toDouble?]
      dsimp only
      rw [Double.isNan_ofDecimal]
      rfl
  | text t =>
    obtain rfl := Except.ok.inj hs
    exact normalOfText_normalOfText t
  | null =>
    obtain rfl := Except.ok.inj hs
    decide +kernel
  | bytes bs => exact hother rfl (normalOfText_shown_octets bs)
  | date d => exact hother rfl (normalOfText_shown_date d)
  | stamp d => exact hother rfl (normalOfText_shown_stamp d)
  | list xs => exact hbracketed rfl rfl (Or.inl ⟨xs, rfl⟩)
  | tuple xs => exact hbracketed rfl rfl (Or.inr (Or.inl ⟨xs, rfl⟩))
  | set xs =>
    cases xs with
    | nil =>
      refine hother rfl ?_
      show normalOfText "set()" = "set()"
      decide +kernel
    | cons x xs => exact hbracketed rfl rfl (Or.inr (Or.inr (Or.inl ⟨x, xs, rfl⟩)))
  | mapping es => exact hbracketed rfl rfl (Or.inr (Or.inr (Or.inr ⟨es, rfl⟩)))

end Datum

/-! ## Keys and records -/

namespace TimerKey

variable {unit tag value : Datum} {key : TimerKey}

/-- The key that the three texts of a key make up. -/
def reread (key : TimerKey) : Except Failure TimerKey :=
  ofValues (.text key.unit) (.text key.tag) (.text key.value)

/-- A key is made up of its own texts. -/
theorem reread_of_ofValues (h : ofValues unit tag value = .ok key) : key.reread = .ok key := by
  unfold ofValues at h
  cases hs : value.normalText with
  | error e =>
    rw [hs] at h
    cases h
  | ok s =>
    rw [hs] at h
    obtain rfl := Except.ok.inj h
    have hsettled : (Datum.text s).normalText = .ok s := by
      rw [Datum.normalText, Datum.normalText_settled hs]
    unfold reread ofValues
    rw [hsettled]
    rfl

end TimerKey

namespace TimerRequest

/-- The key that a request is about. -/
def key : TimerRequest → TimerKey
  | observe key _ => key
  | clear key => key
  | elapsed key _ => key
  | sustained key _ _ _ => key

end TimerRequest

namespace Timers

variable {on : TimerKey → Prop} {t u : Timers}

theorem names_replaced (records : List (TimerKey × Stamp)) (key : TimerKey) (s : Stamp) :
    (replaced records key s).map (·.1) =
      if key ∈ records.map (·.1) then records.map (·.1) else records.map (·.1) ++ [key] := by
  induction records with
  | nil => rfl
  | cons r rest ih =>
    obtain ⟨k, v⟩ := r
    unfold replaced
    by_cases hk : k = key
    · simp [hk]
    · rw [if_neg hk, List.map_cons, ih]
      by_cases hmem : key ∈ rest.map (·.1)
      · simp [hmem]
      · simp [hmem, Ne.symm hk]

/-- The records are about keys of a kind, and no two are about one key. -/
structure Keyed (on : TimerKey → Prop) (t : Timers) : Prop where
  kind : ∀ key ∈ t.records.map (·.1), on key
  apart : (t.records.map (·.1)).Nodup

theorem keyed_empty (on : TimerKey → Prop) (durable : Bool) : Keyed on (empty durable) :=
  ⟨fun _ h => (List.not_mem_nil h).elim, List.nodup_nil⟩

theorem Keyed.written (h : Keyed on t) {key : TimerKey} (hkey : on key) (s : Stamp) :
    Keyed on (t.written key s) := by
  have hnames : (t.written key s).records.map (·.1) =
      if key ∈ t.records.map (·.1) then t.records.map (·.1) else t.records.map (·.1) ++ [key] :=
    names_replaced t.records key (t.kept s)
  constructor
  · intro other hother
    rw [hnames] at hother
    split at hother
    next => exact h.kind other hother
    next =>
      rcases List.mem_append.mp hother with hold | hnew
      · exact h.kind other hold
      · rw [List.mem_singleton.mp hnew]
        exact hkey
  · rw [hnames]
    split
    next => exact h.apart
    next hnew =>
      refine List.nodup_append.mpr ⟨h.apart, List.nodup_singleton key, fun a ha b hb => ?_⟩
      rintro rfl
      rw [List.mem_singleton.mp hb] at ha
      exact hnew ha

theorem Keyed.dropped (h : Keyed on t) (key : TimerKey) : Keyed on (t.dropped key) := by
  have hsub : ((t.dropped key).records.map (·.1)).Sublist (t.records.map (·.1)) :=
    List.filter_sublist.map _
  exact ⟨fun other hother => h.kind other (hsub.subset hother), h.apart.sublist hsub⟩

theorem Moves.keyed (h : Moves on t u) (ht : Keyed on t) : Keyed on u := by
  induction h with
  | refl => exact ht
  | note what _ _ ih => exact ⟨ih.kind, ih.apart⟩
  | write s _ hkey ih => exact ih.written hkey s
  | drop _ _ ih => exact ih.dropped _

/-- A record is found under its key. -/
theorem Keyed.find? (h : Keyed on t) {key : TimerKey} {s : Stamp} (hr : (key, s) ∈ t.records) :
    t.find? key = some s :=
  (lookup_eq_some_iff_of_nodup h.apart).mpr hr

theorem serve_moves (t : Timers) (request : TimerRequest) :
    Moves (· = request.key) t (t.serve request).2 := by
  cases request with
  | observe key at_ => exact t.observe_moves key at_
  | clear key => exact t.clear_moves key
  | elapsed key at_ =>
    have hget : Moves (· = key) t (t.get key).2 := by
      rw [get_snd]
      exact .note _ (.refl t) rfl
    show Moves (· = key) t (t.elapsed key at_).2
    unfold Timers.elapsed
    split <;> simpa [*] using hget
  | sustained key d at_ since => exact t.sustained_moves key d at_ since

/-- What is asked about keys of a kind leaves records about such keys only. -/
theorem session_keyed {steps : List (Bool × TimerRequest)} (hkeys : ∀ step ∈ steps, on step.2.key)
    (h : Keyed on t) : Keyed on (session steps t).2 := by
  induction steps generalizing t with
  | nil => exact h
  | cons step rest ih =>
    obtain ⟨anew, request⟩ := step
    have hresumed : Keyed on (t.resumed anew) := by
      cases anew with
      | false => exact h
      | true => exact ⟨h.kind, h.apart⟩
    have hkey : on request.key := hkeys _ List.mem_cons_self
    have hserved : Keyed on ((t.resumed anew).serve request).2 :=
      ((serve_moves _ request).mono (fun k hk => hk ▸ hkey)).keyed hresumed
    rw [session_cons]
    exact ih (fun later hlater => hkeys later (List.mem_cons_of_mem _ hlater)) hserved

end Timers

/-- The text that a value has in keys is its own text in keys, and the digits of the number where the
value stands for a whole one. So a key is made up of its own texts, and where timers are asked after
under keys of values only, each record in the table is found under the key that its texts make up. -/
theorem TimerKey.settled :
    (∀ (v : Datum) (s : String), v.normalText = .ok s → (Datum.text s).normalText = .ok s) ∧
    (∀ (v : Datum) (x : Double) (n : Int), v.number? = .ok (some x) → x.isWhole = true →
      x.whole? = some n → v.normalText = .ok (toString n)) ∧
    (∀ (unit tag value : Datum) (key : TimerKey), ofValues unit tag value = .ok key →
      key.reread = .ok key) ∧
    ∀ steps : List (Bool × TimerRequest),
      (∀ step ∈ steps, ∃ unit tag value, ofValues unit tag value = .ok step.2.key) →
      ∀ r ∈ (Timers.session steps (.empty true)).2.records,
        ∃ key, r.1.reread = .ok key ∧ (Timers.session steps (.empty true)).2.find? key = some r.2 := by
  refine ⟨?_, ?_, fun unit tag value key h => reread_of_ofValues h, ?_⟩
  · intro v s hs
    rw [Datum.normalText, Datum.normalText_settled hs]
  · intro v x n hx hwhole hn
    obtain ⟨m, hm, htext⟩ := Datum.normalText_of_whole hx hwhole
    rw [htext, Option.some.inj (hn.symm.trans hm)]
  · intro steps hkeys r hr
    have hkeyed := @Timers.session_keyed (fun key => key.reread = .ok key) (.empty true) steps
      (fun step hstep => by
        obtain ⟨unit, tag, value, hkey⟩ := hkeys step hstep
        exact reread_of_ofValues hkey) (Timers.keyed_empty _ true)
    exact ⟨r.1, hkeyed.kind r.1 (List.mem_map_of_mem hr), hkeyed.find? hr⟩

/-- A number between two neighbours in binary64. -/
example : (Datum.text " 9007199254740993.0").normalText = .ok "9007199254740992" ∧
    (Datum.text "9007199254740992").normalText = .ok "9007199254740992" := by decide +kernel

end FaultDesk
