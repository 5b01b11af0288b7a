import FaultDesk.Datum.Shown
import FaultDesk.Yaml.Value

/-!
Writing a plain document as YAML: blocks by indentation, texts without quotes where they read back as
texts, long ones broken at single spaces once a line is longer than eighty columns.
-/

namespace FaultDesk

namespace Yaml

/-- A text in the making. -/
structure Pen where
  /-- What has been written, latest first. -/
  done : List Char
  column : Nat
  /-- Whether a space would be superfluous here. -/
  spaced : Bool
  /-- Whether the line holds only marks so far. -/
  fresh : Bool

namespace Pen

def start : Pen := ⟨[], 0, true, true⟩

def text (p : Pen) : String := String.ofList p.done.reverse

/-- Writes characters within a line. -/
def put (p : Pen) (cs : List Char) : Pen :=
  { p with done := cs.reverse ++ p.done, column := p.column + cs.length }

/-- Ends the line. -/
def newLine (p : Pen) : Pen := ⟨'\n' :: p.done, 0, true, true⟩

/-- Goes to a column, on the next line unless nothing in this line forbids it. -/
def toColumn (p : Pen) (indent : Nat) : Pen :=
  let p := if !p.fresh ∨ indent < p.column ∨ (p.column = indent ∧ !p.spaced) then p.newLine else p
  if p.column < indent then
    { p.put (List.replicate (indent - p.column) ' ') with spaced := true }
  else p

/-- Writes a mark. `apart` asks for a space in front; `leading` says that a line may go on with
another mark behind it. -/
def mark (p : Pen) (cs : List Char) (apart leading : Bool) : Pen :=
  let p' := p.put (if p.spaced ∨ !apart then cs else ' ' :: cs)
  { p' with spaced := false, fresh := p.fresh && leading }

end Pen

/-- The column behind which a line is broken. -/
def lineWidth : Nat := 80

/-- What decides how a text may be written. -/
structure Look where
  /-- Whether it holds a line end. -/
  broken : Bool
  /-- Whether it may stand without quotes. -/
  bare : Bool
  /-- Whether it may stand between apostrophes. -/
  single : Bool

/-- A character that has to be written as an escape. -/
def isSpecial (c : Char) : Bool := !(c == '\n' || (' ' ≤ c && c ≤ '~'))

/-- Whether a character in front of another makes the text read as something else. -/
def marksWithin : Char → List Char → Bool
  | _, [] => false
  | before, c :: rest =>
    (c == ':' && isGap (rest.headD endMark)) || (c == '#' && isGap before) || marksWithin c rest

/-- Whether the first character makes the text read as something else. -/
def marksFirst : List Char → Bool
  | [] => false
  | c :: rest =>
    "#,[]\x7b\x7d&*!|>\x27\"%@`".toList.contains c ||
      ((c == '?' || c == ':' || c == '-') && isGap (rest.headD endMark)) || marksWithin c rest

/-- Whether one character directly follows another. -/
def follows (a b : Char) : List Char → Bool
  | c :: d :: rest => (c == a && d == b) || follows a b (d :: rest)
  | _ => false

def isEdge (c : Option Char) : Bool := c == some ' ' || c == some '\n'

def look (cs : List Char) : Look :=
  let broken := cs.contains '\n'
  let edges := isEdge cs.head? || isEdge cs.getLast?
  let mixed := follows ' ' '\n' cs || follows '\n' ' ' cs
  let special := cs.any isSpecial
  let separates := cs.take 3 == "---".toList || cs.take 3 == "...".toList
  { broken := broken
    bare := !(broken || edges || mixed || special || separates || marksFirst cs)
    single := !(mixed || special) }

/-- Runs of spaces, of line ends, and of other characters. -/
def runs : List Char → List (List Char)
  | [] => []
  | c :: rest =>
    let kind (x : Char) : Nat := if x == ' ' then 1 else if x == '\n' then 2 else 0
    match runs rest with
    | (d :: ds) :: more => if kind c = kind d then (c :: d :: ds) :: more else [c] :: (d :: ds) :: more
    | more => [c] :: more

/-- Whether a single space may become the end of a line. -/
def breaksAt (split : Bool) (run : List Char) (p : Pen) : Bool :=
  split && run == [' '] && decide (lineWidth < p.column)

/-- A text without quotes. -/
def bareRuns (split : Bool) (indent : Nat) : List (List Char) → Pen → Pen
  | [], p => p
  | r :: rest, p =>
    bareRuns split indent rest
      (if breaksAt split r p then { p.toColumn indent with spaced := false, fresh := false }
        else p.put r)

def writeBare (split : Bool) (indent : Nat) (cs : List Char) (p : Pen) : Pen :=
  let p := if p.spaced then p else p.put [' ']
  bareRuns split indent (runs cs) { p with spaced := false, fresh := false }

/-- The runs of a text between apostrophes; an apostrophe is written twice. -/
def singleRuns (split : Bool) (indent : Nat) (first : Bool) : List (List Char) → Pen → Pen
  | [], p => p
  | r :: rest, p =>
    let p :=
      if r.head? = some '\n' then
        (r.foldl (fun p _ => p.newLine) p.newLine).toColumn indent
      else if !first ∧ !rest.isEmpty ∧ breaksAt split r p then p.toColumn indent
      else p.put (r.flatMap fun c => if c = '\x27' then [c, c] else [c])
    singleRuns split indent false rest p

def writeSingle (split : Bool) (indent : Nat) (cs : List Char) (p : Pen) : Pen :=
  (singleRuns split indent true (runs cs) (p.mark ['\x27'] true false)).mark ['\x27'] false false

/-- Escapes of one letter, besides those for the quote and the backslash. -/
def shortEscapes : List (Char × Char) := [
  ('\x00', '0'), ('\x07', 'a'), ('\x08', 'b'), ('\t', 't'), ('\n', 'n'), ('\x0b', 'v'),
  ('\x0c', 'f'), ('\r', 'r'), ('\x1b', 'e'), ('"', '"'), ('\\', '\\'), ('\x85', 'N'), ('\xa0', '_'),
  ('\u2028', 'L'), ('\u2029', 'P')]

def upperHex (width n : Nat) : List Char := (Text.hex width n).map Char.toUpper

def escapeOf (c : Char) : List Char :=
  match shortEscapes.lookup c with
  | some l => ['\\', l]
  | none =>
    if c.toNat < 0x100 then '\\' :: 'x' :: upperHex 2 c.toNat
    else if c.toNat < 0x10000 then '\\' :: 'u' :: upperHex 4 c.toNat
    else '\\' :: 'U' :: upperHex 8 c.toNat

/-- A broken line within double quotes; a space at the start of the next is kept by a backslash. -/
def breakDouble (indent : Nat) (next : Option Char) (p : Pen) : Pen :=
  let p := { (p.put ['\\']).toColumn indent with spaced := false, fresh := false }
  if next = some ' ' then p.put ['\\'] else p

/-- The characters of a text between double quotes. `n` counts those before, `waiting` are those not
written yet. -/
def doubleChars (split : Bool) (indent : Nat) (n : Nat) (waiting : List Char) :
    List Char → Pen → Pen
  | [], p => p.put waiting
  | c :: rest, p =>
    let inside := split && n != 0 && !rest.isEmpty
    if isSpecial c ∨ c = '\n' ∨ c = '"' ∨ c = '\\' then
      let p := (p.put waiting).put (escapeOf c)
      let p := if inside ∧ lineWidth + 1 < p.column then breakDouble indent rest.head? p else p
      doubleChars split indent (n + 1) [] rest p
    else if inside ∧ (c = ' ' ∨ waiting.isEmpty) ∧ lineWidth < p.column + waiting.length then
      doubleChars split indent (n + 1) [c] rest (breakDouble indent (some c) (p.put waiting))
    else doubleChars split indent (n + 1) (waiting ++ [c]) rest p

def writeDouble (split : Bool) (indent : Nat) (cs : List Char) (p : Pen) : Pen :=
  (doubleChars split indent 0 [] cs (p.mark ['"'] true false)).mark ['"'] false false

/-- Whether a text written without quotes reads back as a text. -/
def readsAsText (s : String) : Bool := Spelling.tag s == .text

def writeText (asKey : Bool) (indent : Nat) (s : String) (p : Pen) : Pen :=
  let cs := s.toList
  let l := look cs
  if readsAsText s ∧ l.bare then writeBare (!asKey) indent cs p
  else if l.single ∧ !(asKey && l.broken) then writeSingle (!asKey) indent cs p
  else writeDouble (!asKey) indent cs p

/-- The spelling of a number. -/
def realText (d : Double) : String :=
  match d with
  | .nan => ".nan"
  | .infinite n => if n then "-.inf" else ".inf"
  | d =>
    let s := d.text
    if s.contains '.' then s
    else String.ofList (s.toList.flatMap fun c => if c = 'e' then ".0e".toList else [c])

/-- The longest text a key may have to stand on one line with its value. -/
def keyLimit : Nat := 122

/-- Whether a text can be a key on one line with its value. -/
def isShortKey (s : String) : Bool :=
  !s.isEmpty && !s.contains '\n' && !s.contains '\x85' && !s.contains '\u2028' &&
    !s.contains '\u2029' && decide (s.length ≤ keyLimit)

/-- The text of a key. -/
def keyText : Datum → String
  | .text s => s
  | d => d.shown

mutual

/-- Writes a value. `inMapping` says that it belongs to a key, `indent` is the column of the block
around it. -/
def write (inMapping : Bool) (indent : Option Nat) : Datum → Pen → Pen
  | .null, p => writeBare true 0 "null".toList p
  | .truth b, p => writeBare true 0 (if b then "true" else "false").toList p
  | .int n, p => writeBare true 0 (toString n).toList p
  | .float d, p => writeBare true 0 (realText d).toList p
  | .list [], p => (p.mark ['['] true false).mark [']'] false false
  | .list (x :: xs), p =>
    let column := match indent with
      | none => 0
      | some n => if inMapping && !p.fresh then n else n + 2
    writeItems column (x :: xs) p
  | .mapping [], p => (p.mark ['\x7b'] true false).mark ['\x7d'] false false
  | .mapping (e :: es), p => writeEntries ((indent.map (· + 2)).getD 0) (e :: es) p
  | .text s, p => writeText false ((indent.getD 0) + 2) s p
  | d, p => writeText false ((indent.getD 0) + 2) d.shown p

def writeItems (column : Nat) : List Datum → Pen → Pen
  | [], p => p
  | x :: xs, p =>
    writeItems column xs (write false (some column) x ((p.toColumn column).mark ['-'] true true))

def writeEntries (column : Nat) : List (Datum × Datum) → Pen → Pen
  | [], p => p
  | (k, v) :: es, p =>
    let key := keyText k
    let p := p.toColumn column
    let p :=
      if isShortKey key then (writeText true (column + 2) key p).mark [':'] false false
      else
        let p := writeText false (column + 2) key (p.mark ['?'] true true)
        (p.toColumn column).mark [':'] true true
    writeEntries column es (write true (some column) v p)

end

mutual

/-- Whether a value holds a whole number with more digits than may be written. -/
def hasTooManyDigits : Datum → Bool
  | .int n => decide (Nat.pow 10 Whole.digitLimit ≤ n.natAbs)
  | .list xs => anyTooMany xs
  | .mapping es => anyTooManyIn es
  | _ => false

def anyTooMany : List Datum → Bool
  | [] => false
  | x :: xs => hasTooManyDigits x || anyTooMany xs

def anyTooManyIn : List (Datum × Datum) → Bool
  | [] => false
  | (_, v) :: es => hasTooManyDigits v || anyTooManyIn es

end

/-- The text of a document. -/
def print (d : Datum) : Except Failure String :=
  if hasTooManyDigits d then .error .tooManyDigits
  else .ok ((write false none d .start).toColumn 0).text

end Yaml

end FaultDesk
