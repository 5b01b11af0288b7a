import FaultDesk.Datum.Basic
import FaultDesk.Number.Shortest
import FaultDesk.Number.Whole
import FaultDesk.Text.Quoted

/-!
The text of a value. On its own a text is shown as it is; inside a container every value is shown so
that its kind can be told. A whole number of too many digits has no text, and neither has a container
that holds one.
-/

namespace FaultDesk

namespace Shown

/-- Texts joined with a comma and a space. -/
def commaJoined (parts : List String) : String := ", ".intercalate parts

/-- A span inside a container. -/
def span (s : Span) : String :=
  let days := s / Span.day
  let rest := s % Span.day
  let seconds := rest / 1000000
  let micros := rest % 1000000
  let parts := (if days ≠ 0 then [s!"days={days}"] else []) ++
    (if seconds ≠ 0 then [s!"seconds={seconds}"] else []) ++
    (if micros ≠ 0 then [s!"microseconds={micros}"] else [])
  "datetime.timedelta(" ++ (if parts.isEmpty then "0" else commaJoined parts) ++ ")"

/-- A stamp inside a container. -/
def stamp (s : Stamp) : String :=
  let d := s.date
  let seconds := s.clock / 1000000
  let micros := s.clock % 1000000
  let parts := [toString d.year, toString d.month, toString d.day, toString (seconds / 3600),
      toString (seconds / 60 % 60)] ++
    (if seconds % 60 ≠ 0 ∨ micros ≠ 0 then [toString (seconds % 60)] else []) ++
    (if micros ≠ 0 then [toString micros] else []) ++
    match s.offset with
    | none => []
    | some o => ["tzinfo=" ++
      (if o = 0 then "datetime.timezone.utc" else "datetime.timezone(" ++ span o ++ ")")]
  "datetime.datetime(" ++ commaJoined parts ++ ")"

/-- One octet inside quotes. -/
def octet (mark : Char) (b : UInt8) : List Char :=
  let c := Char.ofNat b.toNat
  if c = mark ∨ c = '\\' then ['\\', c]
  else if c = '\n' then ['\\', 'n']
  else if c = '\r' then ['\\', 'r']
  else if c = '\t' then ['\\', 't']
  else if 32 ≤ b.toNat ∧ b.toNat < 127 then [c]
  else '\\' :: 'x' :: Text.hex 2 b.toNat

/-- Octets with their mark in front. -/
def octets (bs : List UInt8) : String :=
  let mark := Text.quoteMark (bs.map fun b => Char.ofNat b.toNat)
  String.ofList ('b' :: mark :: (bs.flatMap (octet mark) ++ [mark]))

end Shown

namespace Datum

open Shown

mutual

/-- A value as it is shown inside a container. -/
def shownInside : Datum → String
  | .null => "None"
  | .truth b => if b then "True" else "False"
  | .int n => toString n
  | .float d => d.text
  | .decimal d => "Decimal('" ++ d.text ++ "')"
  | .text s => Text.quoted s
  | .bytes bs => octets bs
  | .date d => s!"datetime.date({d.year}, {d.month}, {d.day})"
  | .stamp s => Shown.stamp s
  | .list xs => "[" ++ commaJoined (shownItems xs) ++ "]"
  | .tuple [x] => "(" ++ shownInside x ++ ",)"
  | .tuple xs => "(" ++ commaJoined (shownItems xs) ++ ")"
  | .set [] => "set()"
  | .set xs => "\x7b" ++ commaJoined (shownItems xs) ++ "\x7d"
  | .mapping es => "\x7b" ++ commaJoined (shownEntries es) ++ "\x7d"

def shownItems : List Datum → List String
  | [] => []
  | x :: xs => shownInside x :: shownItems xs

def shownEntries : List (Datum × Datum) → List String
  | [] => []
  | (k, v) :: es => (shownInside k ++ ": " ++ shownInside v) :: shownEntries es

end

/-- A value as it is shown on its own. -/
def shown : Datum → String
  | .text s => s
  | .decimal d => d.text
  | .date d => d.text
  | .stamp s => s.textWith ' '
  | d => shownInside d

mutual

/-- Whether a value holds a whole number of too many digits to be written. -/
def hasLongWhole : Datum → Bool
  | .int n => decide (Nat.pow 10 Whole.digitLimit ≤ n.natAbs)
  | .list xs => anyLongWhole xs
  | .tuple xs => anyLongWhole xs
  | .set xs => anyLongWhole xs
  | .mapping es => anyLongEntry es
  | _ => false

def anyLongWhole : List Datum → Bool
  | [] => false
  | x :: xs => hasLongWhole x || anyLongWhole xs

def anyLongEntry : List (Datum × Datum) → Bool
  | [] => false
  | (k, v) :: es => hasLongWhole k || hasLongWhole v || anyLongEntry es

end

/-- The text of a value as it is shown on its own, when all of it can be written. -/
def written (d : Datum) : Except Failure String :=
  if d.hasLongWhole then .error .tooManyDigits else .ok d.shown

end Datum

end FaultDesk
