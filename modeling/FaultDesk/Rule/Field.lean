import FaultDesk.Datum.Shown
import FaultDesk.Number.Whole
import FaultDesk.Rule.Defect

/-!
Checks of single fields. A value that stands for the wanted kind without loss is taken: a boolean
for a number, a text that reads as one, a whole float for an integer.
-/

namespace FaultDesk

namespace Field

/-- Blank at the ends of a text that is read as a number: the information separators are not. -/
def isMargin (c : Char) : Bool := isBlank c && !(28 ≤ c.toNat && c.toNat ≤ 31)

def trimmed (cs : List Char) : List Char :=
  ((cs.dropWhile isMargin).reverse.dropWhile isMargin).reverse

/-- Takes out underscores when they stand inside the text, one at a time. -/
def withoutUnderscores (cs : List Char) : Option (List Char) :=
  let rec paired : List Char → Bool
    | '_' :: '_' :: _ => true
    | _ :: rest => paired rest
    | [] => false
  if cs.head? = some '_' ∨ cs.getLast? = some '_' ∨ paired cs ∨ !cs.contains '_' then none
  else some (cs.filter (· ≠ '_'))

/-- Reads a number in ASCII digits. -/
def numberText? (s : String) : Option Double :=
  let cs := trimmed s.toList
  match Numeral.plainDouble? cs with
  | some d => some d
  | none => (withoutUnderscores cs).bind Numeral.plainDouble?

/-- Takes off the zeros in front of a whole number, and the underscores among them. A sign stops the
search; what starts with neither a digit nor a sign is no number. -/
def withoutLeadingZeros : List Char → Option (List Char)
  | '0' :: rest =>
    let zeros := rest.takeWhile fun c => c = '0' ∨ c = '_'
    let last := zeros.getLast?.getD '0'
    match rest.dropWhile (fun c => c = '0' ∨ c = '_') with
    | [] => some [last]
    | '.' :: tail => some (last :: '.' :: tail)
    | c :: tail => if c.isDigit then some (c :: tail) else none
  | c :: rest => if c.isDigit ∨ c = '-' then some (c :: rest) else none
  | [] => none

/-- Takes off a point that only zeros follow. -/
def withoutZeroFraction (cs : List Char) : List Char :=
  let back := cs.dropWhile (· ≠ '.')
  if back ≠ [] ∧ (back.drop 1).all (· = '0') then cs.takeWhile (· ≠ '.') else cs

/-- The digits of a whole number behind a minus sign. -/
def bareWhole? (cs : List Char) : Option (Bool × List Char) :=
  let (negative, ds) := match cs with
    | '-' :: rest => (true, rest)
    | _ => (false, cs)
  match ds with
  | ['0'] => some (negative, ds)
  | c :: rest => if c.isDigit ∧ c ≠ '0' ∧ rest.all Char.isDigit then some (negative, ds) else none
  | [] => none

/-- Reads a whole number in ASCII digits; a point followed by zeros only is let through. -/
def wholeText (s : String) : Checked Int :=
  let unsigned? : Option (List Char) := match trimmed s.toList with
    | '+' :: '-' :: _ => none
    | '+' :: rest => some rest
    | cs => some cs
  let digits? := do
    let cs := withoutZeroFraction (← withoutLeadingZeros (← unsigned?))
    bareWhole? ((withoutUnderscores cs).getD cs)
  match digits? with
  | none => .fail .unreadableWhole
  | some (negative, ds) =>
    if Whole.digitLimit < ds.length then .fail .oversizedWhole
    else .valid (if negative then -(Numeral.valueOf ds : Int) else Numeral.valueOf ds)

/-- Reads octets as UTF-8. -/
def octetsText? (bs : List UInt8) : Option String := String.fromUTF8? (ByteArray.mk bs.toArray)

def text : Datum → Checked String
  | .text s => .valid s
  | .bytes bs => match octetsText? bs with
    | some s => .valid s
    | none => .fail .brokenText
  | _ => .fail .notText

/-- The text of any value that can be written. -/
def anyText (d : Datum) : Checked String :=
  match d.written with
  | .ok s => .valid s
  | .error f => .fail (.invalid f.message)

def trueWords : List String := ["1", "on", "t", "true", "y", "yes"]

def falseWords : List String := ["0", "off", "f", "false", "n", "no"]

def truthText (s : String) : Checked Bool :=
  let w := String.ofList (Numeral.lowered s.toList)
  if trueWords.contains w then .valid true
  else if falseWords.contains w then .valid false
  else .fail .unreadableTruth

/-- Whether a whole number lies between `-2 ^ 63` and `2 ^ 63`, both left out. -/
def isShort (n : Int) : Bool := n.natAbs < Nat.pow 2 63

/-- The whole number that a number stands for. -/
def wholeReal (d : Double) : Checked Int :=
  match d.whole? with
  | none => .fail .notFinite
  | some n =>
    if !d.isWhole then .fail .brokenWhole
    else if isShort n then .valid n
    else .fail .oversizedWhole

def truthWhole (n : Int) : Checked Bool :=
  if n = 0 then .valid false else if n = 1 then .valid true else .fail .unreadableTruth

/-- What a number says about a truth; one that is no whole number is of another kind. -/
def truthReal (d : Double) : Checked Bool :=
  match wholeReal d with
  | .valid n => truthWhole n
  | .invalid _ => .fail .notTruth

def truth : Datum → Checked Bool
  | .truth b => .valid b
  | .int n => if isShort n ∨ n = -Nat.pow 2 63 then truthWhole n else .fail .notTruth
  | .float d => truthReal d
  | .decimal d => match d.toDouble? with
    | some x => truthReal x
    | none => .fail .notTruth
  | .text s => truthText s
  | .bytes bs => match octetsText? bs with
    | some s => truthText s
    | none => .fail .unreadableTruth
  | _ => .fail .notTruth

def numberText (s : String) : Checked Double :=
  match numberText? s with
  | some d => .valid d
  | none => .fail .unreadableNumber

/-- A number; a whole number that is too large for one is of another kind. -/
def number : Datum → Checked Double
  | .truth b => .valid (Double.ofNat (if b then 1 else 0))
  | .int n =>
    let d := Double.ofInt n
    if d.isFinite then .valid d else .fail .notNumber
  | .float d => .valid d
  | .decimal d => match d.toDouble? with
    | some x => .valid x
    | none => .fail .notNumber
  | .text s => numberText s
  | .bytes bs => match octetsText? bs with
    | some s => numberText s
    | none => .fail .unreadableNumber
  | _ => .fail .notNumber

def whole : Datum → Checked Int
  | .truth b => .valid (if b then 1 else 0)
  | .int n => .valid n
  | .float d => wholeReal d
  | .decimal d =>
    if !d.isFinite then .fail .notFinite
    else match d.whole? with
      | some n => .valid n
      | none => .fail .brokenWhole
  | .text s => wholeText s
  | .bytes bs => match octetsText? bs with
    | some s => wholeText s
    | none => .fail .unreadableWhole
  | _ => .fail .notWhole

/-- One of the given words. -/
def word {α : Type} (words : List (String × α)) (d : Datum) : Checked α :=
  let refusal := Checked.fail (.notOneOf (words.map (·.1)))
  match d with
  | .text s => match words.lookup s with
    | some a => .valid a
    | none => refusal
  | _ => refusal

/-- Null, or a value of the given kind. -/
def orNull {α : Type} (check : Datum → Checked α) : Datum → Checked (Option α)
  | .null => .valid none
  | d => (check d).map some

/-- Each value of a list, at its position. -/
def items {α : Type} (check : Datum → Checked α) : Int → List Datum → Checked (List α)
  | _, [] => .valid []
  | n, d :: ds => (List.cons <$> (check d).under (.item n)) <*> items check (n + 1) ds

def list {α : Type} (check : Datum → Checked α) : Datum → Checked (List α)
  | .list ds => items check 0 ds
  | .tuple ds => items check 0 ds
  | .set ds => items check 0 ds
  | _ => .fail .notList

/-- The entries of a mapping. -/
def entries (cause : Defect.Cause) : Datum → Checked (List (Datum × Datum))
  | .mapping es => .valid es
  | _ => .fail cause

/-- The first of several names that has an entry. -/
def find? (names : List String) (es : List (Datum × Datum)) : Option Datum :=
  names.findSome? fun n => Datum.lookup n es

/-- A field that must be there; defects are reported under its first name. -/
def required {α : Type} (es : List (Datum × Datum)) (name : String) (others : List String)
    (check : Datum → Checked α) : Checked α :=
  match find? (name :: others) es with
  | some d => (check d).under (.field name)
  | none => (Checked.fail .missing).under (.field name)

/-- A field with a value for when it is left out. -/
def optional {α : Type} (es : List (Datum × Datum)) (name : String) (others : List String)
    (default : α) (check : Datum → Checked α) : Checked α :=
  match find? (name :: others) es with
  | some d => (check d).under (.field name)
  | none => .valid default

/-- A place named by the key of an entry. -/
def keyPlace : Datum → Place
  | .text s => .field s
  | .int n => if isShort n then .item n else .field (toString n)
  | .truth b => .item (if b then 1 else 0)
  | d => .field d.shownInside

/-- A mapping whose keys are texts. -/
def textKeyed : List (Datum × Datum) → Checked (List (String × Datum))
  | [] => .valid []
  | (k, v) :: es =>
    let key := match text k with
      | .valid s => Checked.valid s
      | .invalid ds => (Checked.invalid ds).under (.field "[key]") |>.under (keyPlace k)
    (fun s rest => (s, v) :: rest) <$> key <*> textKeyed es

end Field

end FaultDesk
