import Mathlib.Data.Nat.Notation
import Mathlib.Tactic.Common
import FaultDesk.Datum.JsonRead
import FaultDesk.Text.Quoted

/-!
Texts in JSON. Whatever characters a text holds, it is written in printable ASCII, and it is read back as
it was: an escape stands for one character, or for half of one that lies above the basic plane.
-/

namespace FaultDesk

/-- The characters of ASCII that are shown, the space among them. -/
def isPrintable (c : Char) : Bool := 32 ≤ c.toNat && c.toNat < 127

/-! ## Hexadecimal digits -/

namespace Text

theorem hex_one {n : Nat} (h : n < 16) : hex 1 n = [n.digitChar] := by
  rw [hex, Nat.toDigits_of_lt_base h]
  rfl

theorem hex_succ {width : Nat} (hwidth : 0 < width) (n : Nat) :
    hex (width + 1) n = hex width (n / 16) ++ [(n % 16).digitChar] := by
  rcases Nat.lt_or_ge n 16 with hless | hmore
  · obtain ⟨w, rfl⟩ := Nat.exists_eq_add_of_le' hwidth
    rw [Nat.div_eq_of_lt hless, Nat.mod_eq_of_lt hless, hex, hex, Nat.toDigits_of_lt_base hless,
      Nat.toDigits_of_lt_base (by decide)]
    simp [List.replicate_succ']
  · rw [hex, hex, Nat.toDigits_of_base_le (by decide) hmore, List.length_append, List.length_singleton,
      Nat.add_sub_add_right, List.append_assoc]

/-- A unit of sixteen bits in four digits. -/
theorem hex_four {n : Nat} (h : n < 0x10000) : hex 4 n =
    [(n / 4096).digitChar, (n / 256 % 16).digitChar, (n / 16 % 16).digitChar, (n % 16).digitChar] := by
  rw [hex_succ (by decide), hex_succ (by decide), hex_succ (by decide), hex_one (by omega)]
  simp only [Nat.div_div_eq_div_mul]
  rfl

end Text

namespace JsonRead

theorem hexDigit?_digitChar {n : Nat} (h : n < 16) : hexDigit? n.digitChar = some n := by
  revert n
  decide

theorem quad?_hex {n : Nat} (h : n < 0x10000) : quad? (n / 4096).digitChar (n / 256 % 16).digitChar
    (n / 16 % 16).digitChar (n % 16).digitChar = some n := by
  unfold quad?
  rw [hexDigit?_digitChar (by omega), hexDigit?_digitChar (by omega), hexDigit?_digitChar (by omega),
    hexDigit?_digitChar (by omega)]
  show some _ = some n
  congr 1
  omega

/-! ## Units -/

/-- The units that a character is written as. -/
def unitsOf (c : Char) : List Nat :=
  if c.toNat < 0x10000 then [c.toNat] else [(Text.surrogates c.toNat).1, (Text.surrogates c.toNat).2]

variable {c : Char} {cs rest : List Char} {us : List Nat}

theorem units_hex {n : Nat} (h : n < 0x10000) (cs : List Char) :
    units ('\\' :: 'u' :: Text.hex 4 n ++ cs) = (units cs).map fun p => (n :: p.1, p.2) := by
  rw [Text.hex_four h]
  simp only [List.cons_append, List.nil_append]
  rw [units, quad?_hex h]
  cases units cs <;> rfl

/-- An escape that is one letter. -/
theorem units_escape {e : Char} {n : Nat} (h : escaped? e = some n) (cs : List Char) :
    units ('\\' :: e :: cs) = (units cs).map fun p => (n :: p.1, p.2) := by
  unfold escaped? at h
  split at h
  all_goals cases h
  all_goals
    rw [units]
    · cases units cs <;> rfl
    · simp

theorem units_plain (hquote : c ≠ '"') (hescape : c ≠ '\\') (hshown : 32 ≤ c.toNat) (cs : List Char) :
    units (c :: cs) = (units cs).map fun p => (c.toNat :: p.1, p.2) := by
  rw [units]
  · rw [if_neg (by omega)]
    cases units cs <;> rfl
  · exact hquote
  · simp [hescape]
  · simp [hescape]

/-- A code point that a character has is none of the halves of a pair. -/
theorem toNat_bounds (c : Char) : c.toNat < 0xd800 ∨ 0xdfff < c.toNat ∧ c.toNat < 0x110000 :=
  c.valid

/-- One character is read as its units. -/
theorem units_jsonChar (c : Char) (cs : List Char) :
    units (Text.jsonChar c ++ cs) = (units cs).map fun p => (unitsOf c ++ p.1, p.2) := by
  have hone (h : c.toNat < 0x10000) : unitsOf c = [c.toNat] := if_pos h
  unfold Text.jsonChar
  split_ifs with hmark hline hreturn htab hback hfeed hshown hbasic
  · rcases hmark with rfl | rfl <;> exact units_escape rfl cs
  · subst hline
    exact units_escape rfl cs
  · subst hreturn
    exact units_escape rfl cs
  · subst htab
    exact units_escape rfl cs
  · rw [hone (by omega), hback]
    exact units_escape rfl cs
  · rw [hone (by omega), hfeed]
    exact units_escape rfl cs
  · rw [not_or] at hmark
    rw [hone (by omega)]
    exact units_plain hmark.1 hmark.2 hshown.1 cs
  · rw [hone hbasic]
    exact units_hex hbasic cs
  · have hbounds := toNat_bounds c
    have htwo : unitsOf c = [(Text.surrogates c.toNat).1, (Text.surrogates c.toNat).2] := if_neg hbasic
    have hhigh : (Text.surrogates c.toNat).1 < 0x10000 := by
      unfold Text.surrogates
      omega
    have hlow : (Text.surrogates c.toNat).2 < 0x10000 := by
      unfold Text.surrogates
      omega
    rw [htwo]
    show units ('\\' :: 'u' :: Text.hex 4 (Text.surrogates c.toNat).1 ++
      '\\' :: 'u' :: Text.hex 4 (Text.surrogates c.toNat).2 ++ cs) = _
    rw [List.append_assoc, units_hex hhigh, units_hex hlow, Option.map_map]
    rfl

theorem units_jsonChars (cs rest : List Char) :
    units (cs.flatMap Text.jsonChar ++ '"' :: rest) = some (cs.flatMap unitsOf, rest) := by
  induction cs with
  | nil => rw [List.flatMap_nil, List.nil_append, units]; rfl
  | cons c cs ih =>
    rw [List.flatMap_cons, List.append_assoc, units_jsonChar, ih]
    rfl

/-- The units of a character make it up again, whatever units follow. -/
theorem joined_unitsOf (c : Char) (us : List Nat) : joined (unitsOf c ++ us) = c :: joined us := by
  have hbounds := toNat_bounds c
  unfold unitsOf
  split
  next hbasic =>
    have hchar : unitChar c.toNat = c := by
      rw [unitChar, if_neg (by omega), Char.ofNat_toNat]
    cases us with
    | nil =>
      show [unitChar c.toNat] = [c]
      rw [hchar]
    | cons u us =>
      rw [List.singleton_append, joined, if_neg (by omega), hchar]
  next hbasic =>
    have hcode : 0x10000 + (0xd800 + (c.toNat - 0x10000) / 0x400 - 0xd800) * 0x400 +
        (0xdc00 + (c.toNat - 0x10000) % 0x400 - 0xdc00) = c.toNat := by omega
    simp only [List.cons_append, List.nil_append, Text.surrogates]
    rw [joined, if_pos (by omega), hcode, Char.ofNat_toNat]

theorem joined_flatMap (cs : List Char) : joined (cs.flatMap unitsOf) = cs := by
  induction cs with
  | nil => rfl
  | cons c cs ih => rw [List.flatMap_cons, joined_unitsOf, ih]

/-- A text is read up to its closing quote as the text that it was. -/
theorem text_json (s : String) (rest : List Char) :
    text (s.toList.flatMap Text.jsonChar ++ '"' :: rest) = some (s, rest) := by
  rw [text, units_jsonChars, Option.map_some]
  dsimp only
  rw [joined_flatMap, String.ofList_toList]

end JsonRead

namespace Text

/-! ## Printable characters -/

theorem isPrintable_hex_four {n : Nat} (h : n < 0x10000) : ∀ c ∈ hex 4 n, isPrintable c = true := by
  have hall : ∀ d < 16, isPrintable d.digitChar = true := by decide
  rw [hex_four h]
  simp only [List.forall_mem_cons]
  exact ⟨hall _ (by omega), hall _ (by omega), hall _ (by omega), hall _ (by omega), by simp⟩

theorem isPrintable_jsonChar (c : Char) : ∀ d ∈ jsonChar c, isPrintable d = true := by
  have hbounds := JsonRead.toNat_bounds c
  have hunit {n : Nat} (h : n < 0x10000) : ∀ d ∈ '\\' :: 'u' :: hex 4 n, isPrintable d = true := by
    simp only [List.forall_mem_cons]
    exact ⟨by decide, by decide, isPrintable_hex_four h⟩
  unfold jsonChar
  split_ifs with hmark hline hreturn htab hback hfeed hshown hbasic
  · rcases hmark with rfl | rfl <;> exact List.all_eq_true.mp (by decide)
  · exact List.all_eq_true.mp (by decide)
  · exact List.all_eq_true.mp (by decide)
  · exact List.all_eq_true.mp (by decide)
  · exact List.all_eq_true.mp (by decide)
  · exact List.all_eq_true.mp (by decide)
  · simpa [isPrintable] using hshown
  · exact hunit hbasic
  · intro d hd
    rcases List.mem_append.mp hd with hd | hd
    · exact hunit (by omega) d hd
    · exact hunit (by omega) d hd

theorem isPrintable_json (s : String) : ∀ c ∈ (json s).toList, isPrintable c = true := by
  intro c hc
  rw [json, String.toList_ofList] at hc
  simp only [List.mem_cons, List.mem_append, List.mem_flatMap, List.not_mem_nil, or_false] at hc
  rcases hc with rfl | ⟨d, -, hd⟩ | rfl
  · decide
  · exact isPrintable_jsonChar d c hd
  · decide

end Text

end FaultDesk
