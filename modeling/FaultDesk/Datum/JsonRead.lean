import FaultDesk.Datum.Plain
import FaultDesk.Number.Numeral

/-!
Reading JSON. `NaN`, `Infinity` and `-Infinity` are let through; of entries with one key the last one
counts. A number without point and exponent is whole.
-/

namespace FaultDesk

namespace JsonRead

def isSpace (c : Char) : Bool := c == ' ' || c == '\t' || c == '\n' || c == '\x0d'

def skip (cs : List Char) : List Char := cs.dropWhile isSpace

def hexDigit? (c : Char) : Option Nat :=
  if c.isDigit then some (c.toNat - 48)
  else if 'a' ≤ c ∧ c ≤ 'f' then some (c.toNat - 87)
  else if 'A' ≤ c ∧ c ≤ 'F' then some (c.toNat - 55)
  else none

/-- The value of four hexadecimal digits. -/
def quad? (a b c d : Char) : Option Nat := do
  return (((← hexDigit? a) * 16 + (← hexDigit? b)) * 16 + (← hexDigit? c)) * 16 + (← hexDigit? d)

/-- What a letter behind a backslash stands for. -/
def escaped? : Char → Option Nat
  | '"' => some 34
  | '\\' => some 92
  | '/' => some 47
  | 'b' => some 8
  | 'f' => some 12
  | 'n' => some 10
  | 'r' => some 13
  | 't' => some 9
  | _ => none

/-- The units of a text up to its closing quote, and what follows. -/
def units : List Char → Option (List Nat × List Char)
  | [] => none
  | '"' :: rest => some ([], rest)
  | '\\' :: 'u' :: a :: b :: c :: d :: rest => do
    let n ← quad? a b c d
    let (us, after) ← units rest
    return (n :: us, after)
  | '\\' :: e :: rest => do
    let n ← escaped? e
    let (us, after) ← units rest
    return (n :: us, after)
  | c :: rest => do
    if c.toNat < 32 then none
    else
      let (us, after) ← units rest
      return (c.toNat :: us, after)

/-- The character of a unit; half a pair on its own has none. -/
def unitChar (n : Nat) : Char := if 0xd800 ≤ n ∧ n < 0xe000 then '\ufffd' else Char.ofNat n

/-- The characters of a row of units. -/
def joined : List Nat → List Char
  | [] => []
  | [n] => [unitChar n]
  | high :: low :: rest =>
    if 0xd800 ≤ high ∧ high < 0xdc00 ∧ 0xdc00 ≤ low ∧ low < 0xe000 then
      Char.ofNat (0x10000 + (high - 0xd800) * 0x400 + (low - 0xdc00)) :: joined rest
    else unitChar high :: joined (low :: rest)

/-- Reads a text behind its opening quote. -/
def text (cs : List Char) : Option (String × List Char) :=
  (units cs).map fun (us, rest) => (String.ofList (joined us), rest)

/-- The greatest number of digits of a whole number. -/
def digitLimit : Nat := 4300

/-- The digits before the point: a zero, or digits that start with no zero. -/
def wholePart : List Char → List Char × List Char
  | '0' :: rest => (['0'], rest)
  | cs => (cs.takeWhile Char.isDigit, cs.dropWhile Char.isDigit)

/-- The digits behind a point, if there are any. -/
def fractionPart : List Char → List Char × List Char
  | '.' :: rest =>
    let ds := rest.takeWhile Char.isDigit
    if ds.isEmpty then ([], '.' :: rest) else (ds, rest.dropWhile Char.isDigit)
  | cs => ([], cs)

/-- The exponent, if there is one. -/
def exponentPart (cs : List Char) : Option Int × List Char :=
  match cs with
  | mark :: rest =>
    if mark = 'e' ∨ mark = 'E' then
      let (negative, tail) := Numeral.sign rest
      let ds := tail.takeWhile Char.isDigit
      if ds.isEmpty then (none, cs)
      else
        let n : Int := Numeral.valueOf ds
        (some (if negative then -n else n), tail.dropWhile Char.isDigit)
    else (none, cs)
  | [] => (none, [])

/-- Reads a number. -/
def number (cs : List Char) : Option (Datum × List Char) :=
  let (negative, body) := match cs with
    | '-' :: rest => (true, rest)
    | _ => (false, cs)
  let (whole, rest) := wholePart body
  let (part, rest) := fractionPart rest
  let (exponent, rest) := exponentPart rest
  if whole.isEmpty then none
  else if part.isEmpty ∧ exponent = none then
    if digitLimit < whole.length then none
    else
      let n : Int := Numeral.valueOf whole
      some (.int (if negative then -n else n), rest)
  else
    some (.float (Double.ofDecimal negative (Numeral.valueOf (whole ++ part))
      (exponent.getD 0 - part.length)), rest)

/-- The words and what they stand for. -/
def words : List (List Char × Datum) :=
  [("null".toList, .null), ("true".toList, .truth true), ("false".toList, .truth false),
    ("NaN".toList, .float .nan), ("Infinity".toList, .float (.infinite false)),
    ("-Infinity".toList, .float (.infinite true))]

/-- The word a text starts with. -/
def word? (cs : List Char) : Option (Datum × List Char) :=
  (words.find? fun (w, _) => w.isPrefixOf cs).map fun (w, d) => (d, cs.drop w.length)

mutual

/-- Reads one value, nested no deeper than the fuel lets. -/
def value : Nat → List Char → Option (Datum × List Char)
  | 0, _ => none
  | _ + 1, '"' :: rest => (text rest).map fun (s, after) => (.text s, after)
  | fuel + 1, '[' :: rest =>
    match skip rest with
    | ']' :: after => some (.list [], after)
    | more => (items fuel more).map fun (xs, after) => (.list xs, after)
  | fuel + 1, '\x7b' :: rest =>
    match skip rest with
    | '\x7d' :: after => some (.mapping [], after)
    | more => (entries fuel more).map fun (es, after) =>
      (.mapping (es.foldl (fun done (k, v) => withEntry done k v) []), after)
  | _ + 1, cs => (word? cs).or (number cs)

/-- Reads the items of a list up to its end. -/
def items : Nat → List Char → Option (List Datum × List Char)
  | 0, _ => none
  | fuel + 1, cs => do
    let (x, rest) ← value fuel cs
    match skip rest with
    | ']' :: after => some ([x], after)
    | ',' :: more =>
      let (xs, after) ← items fuel (skip more)
      return (x :: xs, after)
    | _ => none

/-- Reads the entries of a mapping up to its end. -/
def entries : Nat → List Char → Option (List (String × Datum) × List Char)
  | 0, _ => none
  | fuel + 1, cs =>
    match cs with
    | '"' :: rest => do
      let (key, rest) ← text rest
      match skip rest with
      | ':' :: more =>
        let (v, rest) ← value fuel (skip more)
        match skip rest with
        | '\x7d' :: after => some ([(key, v)], after)
        | ',' :: more =>
          let (es, after) ← entries fuel (skip more)
          return ((key, v) :: es, after)
        | _ => none
      | _ => none
    | _ => none

end

end JsonRead

namespace Datum

/-- The value that a JSON text holds. -/
def ofJson? (s : String) : Option Datum := do
  let cs := JsonRead.skip s.toList
  let (d, rest) ← JsonRead.value (2 * cs.length + 1) cs
  if (JsonRead.skip rest).isEmpty then some d else none

end Datum

end FaultDesk
