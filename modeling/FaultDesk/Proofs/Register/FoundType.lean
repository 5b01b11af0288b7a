import FaultDesk.Proofs.Register.NextNumber
import FaultDesk.Proofs.Time.Hours

/-!
Looking for the type of a complaint in tables that others write as well. The search goes through for
most of what a table can hold; what stops it is listed here without a gap, together with where a type
that is found comes from and whether its hours ever end.
-/

namespace FaultDesk

/-- A value with which hours cannot be counted: a whole number too large for binary64. -/
inductive Overlong : Datum → Prop where
  | whole {n : Int} (large : (2 ^ 54 - 1) * 2 ^ 970 ≤ n.natAbs) : Overlong (.int n)

/-- A value that counts as hours without end, or as hours that are no number. -/
inductive Endless : Datum → Prop where
  | number {x : Double} (endless : x.isFinite = false) : Endless (.float x)
  | text {s : String} {x : Double} (read : Double.ofText? s = some x)
      (endless : x.isFinite = false) : Endless (.text s)

namespace ComplaintType

variable {d : Datum} {e : Failure} {t : ComplaintType}

/-! ## What a setting says -/

/-- An entry of a mapping, null where there is none. -/
def field (key : String) (es : List (Datum × Datum)) : Datum := (Datum.lookup key es).getD .null

/-- The entries of a setting that describes a type: those of a mapping with a name. -/
def described? (value : Option String) : Option (List (Datum × Datum)) :=
  match Datum.ofJson? (Text.orElse (value.getD "") "\x7b\x7d") with
  | some (.mapping es) => if (field "name" es).holds then some es else none
  | _ => none

/-- A setting that the search for a name goes past: it describes no type, or one of another name. -/
def Passed (name : String) (s : SettingRow) : Prop :=
  ∀ es, described? s.value = some es → ¬ Overlong (field "slaHours" es) ∧
    ∃ n, field "name" es = .text n ∧ Text.lower n ≠ Text.lower name

/-- A setting at which every search fails that comes to it. -/
inductive Halts (s : SettingRow) : Failure → Prop where
  | overlong {es : List (Datum × Datum)} (described : described? s.value = some es)
      (long : Overlong (field "slaHours" es)) : Halts s .wholeTooLarge
  | unnamed {es : List (Datum × Datum)} (described : described? s.value = some es)
      (short : ¬ Overlong (field "slaHours" es)) (other : ∀ n, field "name" es ≠ .text n) :
      Halts s .lacksOperation

/-- A type that a setting describes under a name, small and capital letters being the same. -/
inductive Answers (name : String) (s : SettingRow) (t : ComplaintType) : Prop where
  | entry {es : List (Datum × Datum)} {n : String} (described : described? s.value = some es)
      (name_eq : t.name = .text n) (same : Text.lower n = Text.lower name)
      (lasting : t.slaHours.isFinite = true ↔ ¬ Endless (field "slaHours" es)) : Answers name s t

variable {name : String} {s : SettingRow} {ss before : List SettingRow}

end ComplaintType

/-! ## The search for a type -/

namespace Register

open ComplaintType

variable {r : Register} {named : Datum} {name : String} {e : Failure} {t : ComplaintType}

/-- What stops the search for the type of a name. -/
inductive Stops (r : Register) (name : String) : Failure → Prop where
  /-- The name is figures that are not read as a number, or a number that no column holds. -/
  | unread {e : Failure} (figures : Text.allFigures name = true)
      (failed : Whole.read name = .error e ∨
        ∃ n, Whole.read name = .ok n ∧ ColumnType.holdsWhole n = false ∧ e = .wholeTooLarge) :
      Stops r name e
  /-- There is no row, and the setting of the name has too large a number of hours. -/
  | keyed {s : SettingRow} {es : List (Datum × Datum)} (rowless : r.typeRow name = .ok none)
      (found : r.settings.find? (fun s => s.key == Text.upper name && s.isActive) = some s)
      (described : described? s.value = some es) (long : Overlong (field "slaHours" es)) :
      Stops r name .wholeTooLarge
  /-- There is no row and no such setting, and a setting that describes a type halts the search. -/
  | listed {e : Failure} {before after : List SettingRow} {s : SettingRow}
      (rowless : r.typeRow name = .ok none) (keyless : r.typeAt (Text.upper name) = .ok none)
      (split : r.typeSettings = before ++ s :: after) (passed : ∀ b ∈ before, Passed name b)
      (halts : Halts s e) : Stops r name e

variable {k : Clerk} {now : Instant} {c : Candidate} {d : Draft}

end Register

end FaultDesk
