import FaultDesk.Datum.Shown

/-!
Values as JSON: one line of printable ASCII, a blank behind every comma and colon. What JSON has no
form for is written as the caller says; a whole number of too many digits cannot be written.
-/

namespace FaultDesk

namespace Double

/-- A number in JSON; NaN and the infinities have words of their own. -/
def jsonChars : Double → List Char
  | .nan => "NaN".toList
  | .infinite n => (if n then "-Infinity" else "Infinity").toList
  | d => d.text.toList

end Double

/-- What is written for a value that JSON has no form for. -/
abbrev Foreign := Datum → Except Failure (List Char)

namespace Foreign

/-- The text of the value. -/
def shown : Foreign := fun d => d.written.map fun s => (Text.json s).toList

/-- Dates and stamps in ISO form, decimals as the nearest number, the text of anything else. -/
def iso : Foreign
  | .date d => .ok (Text.json d.text).toList
  | .stamp s => .ok (Text.json s.text).toList
  | .decimal d =>
    match d.toDouble? with
    | some x => .ok x.jsonChars
    | none => .error .signalingNan
  | d => shown d

end Foreign

namespace Datum

/-- The key of an entry. -/
def jsonKey : Datum → Except Failure (List Char)
  | .text s => .ok (Text.json s).toList
  | .int n => (Whole.write n).map fun s => (Text.json s).toList
  | .float d => .ok (Text.json (String.ofList d.jsonChars)).toList
  | .truth b => .ok (Text.json (if b then "true" else "false")).toList
  | .null => .ok (Text.json "null").toList
  | _ => .error .wrongKind

mutual

def jsonChars (foreign : Foreign) : Datum → Except Failure (List Char)
  | .null => .ok "null".toList
  | .truth b => .ok (if b then "true" else "false").toList
  | .int n => (Whole.write n).map String.toList
  | .float d => .ok d.jsonChars
  | .text s => .ok (Text.json s).toList
  | .list [] => .ok ['[', ']']
  | .list (x :: xs) => do
    let first ← jsonChars foreign x
    let more ← jsonItems foreign xs
    return '[' :: (first ++ more)
  | .tuple [] => .ok ['[', ']']
  | .tuple (x :: xs) => do
    let first ← jsonChars foreign x
    let more ← jsonItems foreign xs
    return '[' :: (first ++ more)
  | .mapping [] => .ok ['\x7b', '\x7d']
  | .mapping ((k, v) :: es) => do
    let key ← jsonKey k
    let first ← jsonChars foreign v
    let more ← jsonEntries foreign es
    return '\x7b' :: (key ++ ':' :: ' ' :: (first ++ more))
  | d => foreign d

/-- The items behind the first, and the end of the list. -/
def jsonItems (foreign : Foreign) : List Datum → Except Failure (List Char)
  | [] => .ok [']']
  | x :: xs => do
    let next ← jsonChars foreign x
    let more ← jsonItems foreign xs
    return ',' :: ' ' :: (next ++ more)

/-- The entries behind the first, and the end of the mapping. -/
def jsonEntries (foreign : Foreign) : List (Datum × Datum) → Except Failure (List Char)
  | [] => .ok ['\x7d']
  | (k, v) :: es => do
    let key ← jsonKey k
    let next ← jsonChars foreign v
    let more ← jsonEntries foreign es
    return ',' :: ' ' :: (key ++ ':' :: ' ' :: (next ++ more))

end

/-- A value as JSON. -/
def json (foreign : Foreign) (d : Datum) : Except Failure String :=
  (d.jsonChars foreign).map String.ofList

end Datum

end FaultDesk
