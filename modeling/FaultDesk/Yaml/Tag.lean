/-!
Tags say what kind of value a node stands for. A plain scalar without a tag shows its kind by its
spelling.
-/

namespace FaultDesk

namespace Yaml

inductive Tag where
  | null
  | truth
  | whole
  | real
  | binary
  | timestamp
  | text
  | sequence
  | mapping
  | set
  /-- Pairs in order, each a mapping of one entry. -/
  | pairs
  /-- The mark of an entry whose value's entries are taken over. -/
  | merge
  /-- The mark of the entry that stands for the mapping as a whole. -/
  | standIn
  | unknown
deriving DecidableEq, Repr

namespace Tag

/-- What the names of common tags begin with. -/
def common : String := "tag:yaml.org,2002:"

def names : List (String × Tag) := [
  ("null", null), ("bool", truth), ("int", whole), ("float", real), ("binary", binary),
  ("timestamp", timestamp), ("str", text), ("seq", sequence), ("map", mapping), ("set", set),
  ("pairs", pairs), ("omap", pairs), ("merge", merge), ("value", standIn)]

def ofName (name : String) : Tag :=
  ((names.map fun (n, t) => (common ++ n, t)).lookup name).getD unknown

end Tag

namespace Spelling

/-- The pieces between separators. -/
def pieces (separator : Char) : List Char → List (List Char)
  | [] => [[]]
  | c :: rest =>
    if c = separator then [] :: pieces separator rest
    else
      match pieces separator rest with
      | p :: ps => (c :: p) :: ps
      | [] => [[c]]

def unsigned : List Char → List Char
  | '-' :: rest => rest
  | '+' :: rest => rest
  | cs => cs

def isDigitOrLow (c : Char) : Bool := c.isDigit || c == '_'

/-- A digit, then digits and underscores. -/
def isRun : List Char → Bool
  | c :: rest => c.isDigit && rest.all isDigitOrLow
  | [] => false

/-- A run that does not begin with zero. -/
def isWholeRun (cs : List Char) : Bool := isRun cs && cs.head? != some '0'

/-- A part of a number in base sixty. -/
def isSixtieth : List Char → Bool
  | [c] => c.isDigit
  | [b, c] => '0' ≤ b && b ≤ '5' && c.isDigit
  | _ => false

/-- A number in base sixty, with at least one colon. -/
def isSexagesimal (first : List Char → Bool) (cs : List Char) : Bool :=
  match pieces ':' cs with
  | p :: q :: rest => first p && (q :: rest).all isSixtieth
  | _ => false

def isNonEmpty (p : Char → Bool) (cs : List Char) : Bool := !cs.isEmpty && cs.all p

def isOctal (c : Char) : Bool := c == '_' || ('0' ≤ c && c ≤ '7')

def isBinary (c : Char) : Bool := c == '_' || c == '0' || c == '1'

def isHex (c : Char) : Bool :=
  isDigitOrLow c || ('a' ≤ c && c ≤ 'f') || ('A' ≤ c && c ≤ 'F')

def isWhole (cs : List Char) : Bool :=
  match unsigned cs with
  | ['0'] => true
  | '0' :: 'b' :: rest => isNonEmpty isBinary rest
  | '0' :: 'x' :: rest => isNonEmpty isHex rest
  | '0' :: rest => isNonEmpty isOctal rest
  | ds => isWholeRun ds || isSexagesimal isWholeRun ds

/-- Nothing, or an exponent with a sign and at least one digit. -/
def isExponent : List Char → Bool
  | [] => true
  | e :: s :: ds => (e == 'e' || e == 'E') && (s == '-' || s == '+') && isNonEmpty Char.isDigit ds
  | _ => false

def infinities : List (List Char) := [".inf", ".Inf", ".INF"].map String.toList

def nans : List (List Char) := [".nan", ".NaN", ".NAN"].map String.toList

def isReal (cs : List Char) : Bool :=
  let ds := unsigned cs
  let front := ds.takeWhile (· != '.')
  let back := (ds.dropWhile (· != '.')).drop 1
  infinities.contains ds || nans.contains cs ||
    (ds.contains '.' &&
      ((isRun front && isExponent (back.dropWhile isDigitOrLow)) ||
        (front.isEmpty && ds == cs && isRun (back.takeWhile isDigitOrLow) &&
          isExponent (back.dropWhile isDigitOrLow)) ||
        (isSexagesimal isRun front && back.all isDigitOrLow)))

def truths : List String := ["yes", "true", "on"]

def untruths : List String := ["no", "false", "off"]

/-- A word in lower case, upper case or with a capital. -/
def inCases (w : String) : List String := [w, w.map Char.toUpper, w.capitalize]

def nulls : List String := ["", "~"] ++ inCases "null"

/-- One or two digits, and the rest. -/
def oneOrTwo : List Char → Option (List Char × List Char)
  | a :: b :: rest =>
    if a.isDigit then if b.isDigit then some ([a, b], rest) else some ([a], b :: rest) else none
  | [a] => if a.isDigit then some ([a], []) else none
  | [] => none

/-- Exactly two digits, and the rest. -/
def two : List Char → Option (List Char × List Char)
  | a :: b :: rest => if a.isDigit && b.isDigit then some ([a, b], rest) else none
  | _ => none

/-- A given character, and the rest. -/
def one (c : Char) : List Char → Option (List Char)
  | d :: rest => if d = c then some rest else none
  | [] => none

/-- The parts of a timestamp as they are written. -/
structure Parts where
  year : List Char
  month : List Char
  day : List Char
  clock : Option (List Char × List Char × List Char)
  fraction : List Char
  /-- UTC, or a sign, hours and minutes. -/
  zone : Option (Option (Char × List Char × List Char))

/-- The offset behind a timestamp. -/
def zone (cs : List Char) : Option (Option (Option (Char × List Char × List Char))) :=
  match cs.dropWhile fun c => c == ' ' || c == '\t' with
  | [] => if cs.isEmpty then some none else none
  | ['Z'] => some (some none)
  | s :: rest =>
    if s = '-' ∨ s = '+' then do
      let (h, rest) ← oneOrTwo rest
      match rest with
      | [] => some (some (some (s, h, [])))
      | _ => do
        let (m, rest) ← two (← one ':' rest)
        if rest.isEmpty then some (some (some (s, h, m))) else none
    else none

/-- Splits a timestamp; months and days may have one digit. -/
def timestamp? (cs : List Char) : Option Parts := do
  let (y, rest) ← two cs
  let (y', rest) ← two rest
  let (month, rest) ← oneOrTwo (← one '-' rest)
  let (day, rest) ← oneOrTwo (← one '-' rest)
  match rest with
  | [] => some ⟨y ++ y', month, day, none, [], none⟩
  | c :: more => do
    let blanks := more.dropWhile fun c => c == ' ' || c == '\t'
    let rest ←
      if c = 'T' ∨ c = 't' then some more
      else if c = ' ' ∨ c = '\t' then some blanks
      else none
    let (h, rest) ← oneOrTwo rest
    let (m, rest) ← two (← one ':' rest)
    let (s, rest) ← two (← one ':' rest)
    let (fraction, rest) := match rest with
      | '.' :: r => (r.takeWhile Char.isDigit, r.dropWhile Char.isDigit)
      | _ => ([], rest)
    let z ← zone rest
    some ⟨y ++ y', month, day, some (h, m, s), fraction, z⟩

/-- Whether a plain scalar is spelled as a timestamp; a date alone has all its digits. -/
def isTimestamp (cs : List Char) : Bool :=
  match timestamp? cs with
  | some p => p.clock.isSome || cs.length == 10
  | none => false

/-- The tag of a plain scalar. -/
def tag (s : String) : Tag :=
  let cs := s.toList
  if nulls.contains s then .null
  else if ((truths ++ untruths).flatMap inCases).contains s then .truth
  else if s = "<<" then .merge
  else if s = "=" then .standIn
  else if isReal cs then .real
  else if isWhole cs then .whole
  else if isTimestamp cs then .timestamp
  else .text

end Spelling

end Yaml

end FaultDesk
