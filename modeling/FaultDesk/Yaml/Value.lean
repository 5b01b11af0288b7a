import FaultDesk.Datum.Same
import FaultDesk.Datum.Shown
import FaultDesk.Number.Whole
import FaultDesk.Text.Case
import FaultDesk.Yaml.Node

/-!
The value a YAML document stands for. Of entries with one key the last counts; the entries of a
mapping that is taken over come before a mapping's own.
-/

namespace FaultDesk

/-- Why a document gives no value. -/
inductive Unreadable where
  /-- The text is no document of the format. -/
  | malformed
  /-- A scalar is spelled as a value that does not exist. -/
  | failed (cause : Failure)
deriving DecidableEq, Repr

namespace Yaml

namespace Malformed

def unreadable : Malformed → Unreadable
  | document => .malformed
  | codePoint => .failed .noCodePoint
  | codeNumber => .failed .codeTooLarge

end Malformed

abbrev Outcome := Except Unreadable

def stop {α : Type} (f : Failure) : Outcome α := .error (.failed f)

def malformed {α : Type} : Outcome α := .error .malformed

def quotedChars (cs : List Char) : String := Text.quoted (String.ofList cs)

def digitIn? (base : Nat) (c : Char) : Option Nat :=
  let v := Flow.hexValue [c]
  if Flow.isHexDigit c ∧ v < base then some v else none

/-- The letter behind a zero that says the base. -/
def baseLetter : Nat → Char
  | 2 => 'b'
  | 8 => 'o'
  | _ => 'x'

/-- Reads a whole number in base 2, 8 or 16; a sign and the mark of the base may stand in front. -/
def wholeIn (base : Nat) (cs : List Char) : Outcome Int :=
  let (negative, ds) := Numeral.sign (Text.stripped cs)
  let ds := match ds with
    | '0' :: x :: rest => if x.toLower = baseLetter base then rest else ds
    | _ => ds
  match ds.mapM (digitIn? base) with
  | some (v :: vs) =>
    let n : Nat := (v :: vs).foldl (fun n d => n * base + d) 0
    .ok (if negative then -(n : Int) else n)
  | _ => stop (.notWhole base (Whole.quotedShort (String.ofList cs)))

/-- Reads a whole number in decimal. -/
def wholeTen (cs : List Char) : Outcome Int :=
  match Whole.read (String.ofList cs) with
  | .ok n => .ok n
  | .error e => stop e

/-- Parts in base sixty, the greatest first. -/
def sixtieths (parts : List Int) : Int := parts.foldl (fun n p => n * 60 + p) 0

def negatedIf (negative : Bool) (n : Int) : Int := if negative then -n else n

def wholeValue (s : String) : Outcome Int :=
  let cs := s.toList.filter (· != '_')
  if cs.isEmpty then stop .emptyNumber
  else
    let (negative, ds) := Numeral.sign cs
    negatedIf negative <$>
      match ds with
      | [] => stop .emptyNumber
      | ['0'] => .ok 0
      | '0' :: 'b' :: rest => wholeIn 2 rest
      | '0' :: 'x' :: rest => wholeIn 16 rest
      | '0' :: _ => wholeIn 8 ds
      | _ =>
        if ds.contains ':' then sixtieths <$> (Spelling.pieces ':' ds).mapM wholeTen
        else wholeTen ds

def realPart (cs : List Char) : Outcome Double :=
  match Double.ofText? (String.ofList cs) with
  | some d => .ok d
  | none => stop (.notNumber (quotedChars cs))

/-- The sum of parts in base sixty, the least first. -/
def sixtiethSum (scale : Nat) (sum : Double) : List Double → Double
  | [] => sum
  | p :: rest => sixtiethSum (scale * 60) (sum.add (p.scale scale)) rest

def opposedIf (negative : Bool) (d : Double) : Double :=
  if negative then d.mul (Double.ofInt (-1)) else d

def realValue (s : String) : Outcome Double :=
  let cs := (Text.lower s).toList.filter (· != '_')
  if cs.isEmpty then stop .emptyNumber
  else
    let (negative, ds) := Numeral.sign cs
    if ds = ".inf".toList then .ok (.infinite negative)
    else if ds = ".nan".toList then .ok .nan
    else if ds.contains ':' then do
      let parts ← (Spelling.pieces ':' ds).mapM realPart
      return opposedIf negative (sixtiethSum 1 Double.zero parts.reverse)
    else opposedIf negative <$> realPart ds

def truthValue (s : String) : Outcome Bool :=
  let w := Text.lower s
  if Spelling.truths.contains w then .ok true
  else if Spelling.untruths.contains w then .ok false
  else stop .unknownWord

/-- The distance from UTC, less than a day in either direction. -/
def offsetValue (sign : Char) (hours minutes : List Char) : Outcome Span :=
  let span : Span := (Numeral.valueOf hours * 60 + Numeral.valueOf minutes : Nat) * Span.minute
  let span := if sign = '-' then -span else span
  if -Span.day < span ∧ span < Span.day then .ok span else stop (.offsetTooLong (Shown.span span))

def dateValue (p : Spelling.Parts) : Outcome Date :=
  let y := Numeral.valueOf p.year
  let m := Numeral.valueOf p.month
  let d := Numeral.valueOf p.day
  if y < 1 then stop (.noSuchYear y)
  else if m < 1 ∨ 12 < m then stop (.partOutOfRange "month" "1..12")
  else if d < 1 ∨ Calendar.daysIn y m < d then stop .noSuchDay
  else .ok ⟨y, m, d⟩

/-- The microseconds since midnight. -/
def clockValue (hour minute second fraction : List Char) : Outcome Nat :=
  let h := Numeral.valueOf hour
  let m := Numeral.valueOf minute
  let s := Numeral.valueOf second
  let six := fraction.take 6
  let micros := Numeral.valueOf six * Nat.pow 10 (6 - six.length)
  if 23 < h then stop (.partOutOfRange "hour" "0..23")
  else if 59 < m then stop (.partOutOfRange "minute" "0..59")
  else if 59 < s then stop (.partOutOfRange "second" "0..59")
  else .ok ((h * 3600 + m * 60 + s) * 1000000 + micros)

def timestampValue (s : String) : Outcome Datum :=
  match Spelling.timestamp? s.toList with
  | none => stop .lacksOperation
  | some p => do
    match p.clock with
    | none => return .date (← dateValue p)
    | some (h, m, s) =>
      let offset ← match p.zone with
        | none => pure none
        | some none => pure (some 0)
        | some (some (sign, hours, minutes)) => some <$> offsetValue sign hours minutes
      let d ← dateValue p
      let c ← clockValue h m s p.fraction
      return .stamp ⟨(d.number : Int) * Span.day + c, offset⟩

namespace Sixtyfour

/-- The value of a character of the base-64 alphabet. -/
def value? (c : Char) : Option Nat :=
  if 'A' ≤ c ∧ c ≤ 'Z' then some (c.toNat - 65)
  else if 'a' ≤ c ∧ c ≤ 'z' then some (c.toNat - 71)
  else if c.isDigit then some (c.toNat + 4)
  else if c = '+' then some 62
  else if c = '/' then some 63
  else none

/-- Reads characters in groups of four; others are passed over. `place` counts within the group,
`left` is what is left over of the last character, `pads` counts the marks at the end. -/
def decodeFrom (place left pads : Nat) (done : List UInt8) : List Char → Option (List UInt8)
  | [] => if place = 0 then some done.reverse else none
  | '=' :: rest =>
    if 2 ≤ place then
      if 4 ≤ place + (pads + 1) then some done.reverse
      else decodeFrom place left (pads + 1) done rest
    else decodeFrom place left pads done rest
  | c :: rest =>
    match value? c with
    | none => decodeFrom place left pads done rest
    | some v =>
      match place with
      | 0 => decodeFrom 1 v 0 done rest
      | 1 => decodeFrom 2 (v % 16) 0 (UInt8.ofNat (left * 4 + v / 16) :: done) rest
      | 2 => decodeFrom 3 (v % 4) 0 (UInt8.ofNat (left * 16 + v / 4) :: done) rest
      | _ => decodeFrom 0 0 0 (UInt8.ofNat (left * 64 + v) :: done) rest

def decode (cs : List Char) : Option (List UInt8) := decodeFrom 0 0 0 [] cs

end Sixtyfour

def binaryValue (s : String) : Outcome Datum :=
  if s.toList.all (·.toNat < 128) then
    match Sixtyfour.decode s.toList with
    | some bs => .ok (.bytes bs)
    | none => malformed
  else malformed

/-- The value of a scalar. -/
def scalarValue (t : Tag) (s : String) : Outcome Datum :=
  match t with
  | .null => .ok .null
  | .truth => .truth <$> truthValue s
  | .whole => .int <$> wholeValue s
  | .real => .float <$> realValue s
  | .binary => binaryValue s
  | .timestamp => timestampValue s
  | .text => .ok (.text s)
  | _ => malformed

/-- Keys that count as one. -/
def sameKey (a b : Datum) : Bool :=
  match a, b with
  | .float .nan, .float .nan => true
  | _, _ => a.same b

/-- The entries with one added; an entry of the same key gets the new value where it stands. -/
def withPair (k v : Datum) : List (Datum × Datum) → List (Datum × Datum)
  | [] => [(k, v)]
  | (l, w) :: rest => if sameKey l k then (l, v) :: rest else (l, w) :: withPair k v rest

/-- Whether a value can be a key. -/
def canBeKey : Datum → Bool
  | .list _ => false
  | .set _ => false
  | .mapping _ => false
  | _ => true

/-- Entries in which the key that stands for the mapping is an ordinary text. -/
def withTextKeys (es : List (Node × Node)) : List (Node × Node) :=
  es.map fun (k, v) => match k with
    | .scalar .standIn s => (.scalar .text s, v)
    | k => (k, v)

/-- The entries of a mapping that is taken over. -/
def takenOver : Node → Outcome (List (Node × Node))
  | .mapping _ es => .ok es
  | _ => malformed

def isMerge : Node → Bool
  | .scalar .merge _ => true
  | _ => false

/-- What is taken over from the value of a merge entry; of several mappings the first counts most. -/
def sources : Node → Outcome (List (Node × Node))
  | .mapping _ es => .ok es
  | .sequence _ ns => do return (← ns.mapM takenOver).reverse.flatten
  | .scalar .. => malformed

/-- The entries with those taken over in front. -/
def merged (es : List (Node × Node)) : Outcome (List (Node × Node)) := do
  let taken ← (es.filter (isMerge ·.1)).mapM fun (_, v) => sources v
  return taken.flatten ++ withTextKeys (es.filter (!isMerge ·.1))

mutual

/-- The node with all entries taken over that are to be. -/
def settle : Node → Outcome Node
  | .scalar t s => .ok (.scalar t s)
  | .sequence t ns => do return .sequence t (← settleItems ns)
  | .mapping t es => do
    let es ← settleEntries es
    if t = .mapping ∨ t = .set then return .mapping t (← merged es) else return .mapping t es

def settleItems : List Node → Outcome (List Node)
  | [] => .ok []
  | n :: ns => do
    let m ← settle n
    let ms ← settleItems ns
    return m :: ms

def settleEntries : List (Node × Node) → Outcome (List (Node × Node))
  | [] => .ok []
  | (k, v) :: es => do
    let k ← settle k
    let v ← settle v
    let rest ← settleEntries es
    return (k, v) :: rest

end

mutual

/-- The text of a scalar, or of the scalar that stands for a mapping. -/
def scalarText : Node → Outcome String
  | .scalar _ s => .ok s
  | .sequence .. => malformed
  | .mapping _ es => standInText es

def standInText : List (Node × Node) → Outcome String
  | [] => malformed
  | (.scalar .standIn _, v) :: _ => scalarText v
  | (.scalar ..,  _) :: es => standInText es
  | (.sequence ..,  _) :: es => standInText es
  | (.mapping ..,  _) :: es => standInText es

end

mutual

/-- The value of a node. -/
def value : Node → Outcome Datum
  | .scalar t s => scalarValue t s
  | .sequence t ns =>
    match t with
    | .sequence => .list <$> valueItems ns
    | .pairs => .list <$> valuePairs ns
    | _ => malformed
  | .mapping t es =>
    match t with
    | .mapping => .mapping <$> valueEntries [] es
    | .set => (fun es => .set (es.map (·.1))) <$> valueEntries [] es
    | t => do scalarValue t (← standInText es)

def valueItems : List Node → Outcome (List Datum)
  | [] => .ok []
  | n :: ns => do
    let d ← value n
    let ds ← valueItems ns
    return d :: ds

/-- The values of mappings of one entry each. -/
def valuePairs : List Node → Outcome (List Datum)
  | [] => .ok []
  | .mapping _ [(k, v)] :: ns => do
    let k ← value k
    let v ← value v
    let ds ← valuePairs ns
    return .tuple [k, v] :: ds
  | _ :: _ => malformed

def valueEntries (done : List (Datum × Datum)) :
    List (Node × Node) → Outcome (List (Datum × Datum))
  | [] => .ok done
  | (k, v) :: es => do
    let k ← value k
    if canBeKey k then
      let v ← value v
      valueEntries (withPair k v done) es
    else malformed

end

/-- The value of the document in a text; an empty text has none. -/
def read (s : String) : Outcome (Option Datum) :=
  match root? s with
  | .error e => .error e.unreadable
  | .ok none => .ok none
  | .ok (some n) => do return some (← value (← settle n))

end Yaml

end FaultDesk
