import FaultDesk.Yaml.Cursor

/-!
Scalars within a line of flow: quoted ones and plain ones. Both may go on over several lines, which
are then folded: a single line end becomes a space, of more the first is dropped.
-/

namespace FaultDesk

namespace Yaml

/-- What the line ends between two pieces of text become. -/
def folded (first : List Char) (others : List Char) : List Char :=
  if first ≠ ['\n'] then first ++ others
  else if others.isEmpty then [' ']
  else others

namespace Flow

/-- Characters that follow a backslash and stand for one other character. -/
def escapes : List (Char × Char) := [
  ('0', '\x00'), ('a', '\x07'), ('b', '\x08'), ('t', '\t'), ('\t', '\t'), ('n', '\n'),
  ('v', '\x0b'), ('f', '\x0c'), ('r', '\r'), ('e', '\x1b'), (' ', ' '), ('"', '"'), ('\\', '\\'),
  ('/', '/'), ('N', '\x85'), ('_', '\xa0'), ('L', '\u2028'), ('P', '\u2029')]

/-- Characters that follow a backslash and a number of hexadecimal digits. -/
def escapeLengths : List (Char × Nat) := [('x', 2), ('u', 4), ('U', 8)]

def isHexDigit (c : Char) : Bool := c.isDigit || ('a' ≤ c && c ≤ 'f') || ('A' ≤ c && c ≤ 'F')

def hexValue (cs : List Char) : Nat :=
  cs.foldl (fun v c => v * 16 +
    (if c.isDigit then c.toNat - 48 else (c.toLower).toNat - 87)) 0

/-- The character with a code point given in hexadecimal. -/
def escaped (digits : List Char) : Except Malformed Char :=
  let n := hexValue digits
  if n ≤ 0x10ffff then .ok (Char.ofNat n)
  else if n < 0x80000000 then .error .codePoint
  else .error .codeNumber

/-- Line ends and what stands in front of the text on the next lines. A separator of documents has
no place within quotes. -/
def quotedBreaks : Nat → Cursor → List Char → Except Malformed (List Char × Cursor)
  | 0, c, done => .ok (done, c)
  | fuel + 1, c, done =>
    if c.separates then .error .document
    else
      let c := c.skipWhile fun x => x == ' ' || x == '\t'
      if isBreak c.next then
        let (e, c) := c.lineEnd
        quotedBreaks fuel c (done ++ e)
      else .ok (done, c)

/-- The piece behind a backslash. -/
def escape (fuel : Nat) (c : Cursor) : Except Malformed (List Char × Cursor) :=
  match escapes.lookup c.next with
  | some x => .ok ([x], c.step)
  | none =>
    match escapeLengths.lookup c.next with
    | some n =>
      let digits := c.step.rest.take n
      if digits.length = n ∧ digits.all isHexDigit then do
        return ([← escaped digits], c.step.skip n)
      else .error .document
    | none =>
      if isBreak c.next then quotedBreaks fuel c.lineEnd.2 []
      else .error .document

/-- Reads on to the closing quote; `done` is what has been read. -/
def quotedFrom (double : Bool) : Nat → Cursor → List Char → Except Malformed (List Char × Cursor)
  | 0, _, _ => .error .document
  | fuel + 1, c, done =>
    let quote := if double then '"' else '\x27'
    if c.rest.isEmpty then .error .document
    else if c.next = quote then
      if !double ∧ c.peek 1 = quote then quotedFrom double fuel (c.skip 2) (done ++ [quote])
      else .ok (done, c.step)
    else if double ∧ c.next = '\\' then do
      let (e, c) ← escape (fuel + 1) c.step
      quotedFrom double fuel c (done ++ e)
    else if c.next = ' ' ∨ c.next = '\t' ∨ isBreak c.next then
      let (blanks, c) := c.takeWhile fun x => x == ' ' || x == '\t'
      if c.rest.isEmpty then .error .document
      else if isBreak c.next then do
        let (first, c) := c.lineEnd
        let (others, c) ← quotedBreaks (fuel + 1) c []
        quotedFrom double fuel c (done ++ folded first others)
      else quotedFrom double fuel c (done ++ blanks)
    else
      let (text, c) := c.takeWhile fun x =>
        !(x == '"' || x == '\x27' || x == '\\' || x == ' ' || x == '\t' || isBreak x)
      if text.isEmpty then quotedFrom double fuel c.step (done ++ [c.next])
      else quotedFrom double fuel c (done ++ text)

/-- A quoted scalar; the cursor stands at its opening quote. -/
def quoted (c : Cursor) : Except Malformed (List Char × Cursor) :=
  quotedFrom (c.next == '"') (c.rest.length + 1) c.step []

/-- Whether a plain scalar ends before a character, given the one behind it. -/
def plainStops (inFlow : Bool) (x y : Char) : Bool :=
  isGap x || (x == ':' && (isGap y || (inFlow && ",[]\x7b\x7d".toList.contains y))) ||
    (inFlow && ",?[]\x7b\x7d".toList.contains x)

/-- One word of a plain scalar. -/
def plainWord (inFlow : Bool) : List Char → List Char
  | [] => []
  | x :: rest =>
    if plainStops inFlow x (rest.headD endMark) then [] else x :: plainWord inFlow rest

/-- Further line ends and the spaces around them; none at a separator of documents. -/
def plainBreaks : Nat → Cursor → List Char → Option (List Char) × Cursor
  | 0, c, done => (some done, c)
  | fuel + 1, c, done =>
    if c.next = ' ' then plainBreaks fuel c.step done
    else if isBreak c.next then
      let (e, c) := c.lineEnd
      if c.separates then (none, c) else plainBreaks fuel c (done ++ e)
    else (some done, c)

/-- What stands between two words of a plain scalar. -/
structure Gap where
  text : List Char
  /-- Whether a line ends in it. -/
  crossed : Bool
  cursor : Cursor

def plainGap (c : Cursor) : Gap :=
  let (blanks, c) := c.takeWhile (· == ' ')
  if isBreak c.next then
    let (first, c) := c.lineEnd
    if c.separates then ⟨[], true, c⟩
    else
      match plainBreaks (c.rest.length + 1) c [] with
      | (none, c) => ⟨[], true, c⟩
      | (some others, c) => ⟨folded first others, true, c⟩
  else ⟨blanks, false, c⟩

/-- Reads words up to the end of a plain scalar. `gap` is what stands before the next word. -/
def plainFrom (inFlow : Bool) (indent : Int) : Nat → Gap → List Char → List Char × Gap
  | 0, gap, done => (done, gap)
  | fuel + 1, gap, done =>
    let c := gap.cursor
    if c.next = '#' then (done, gap)
    else
      let word := plainWord inFlow c.rest
      if word.isEmpty then (done, gap)
      else
        let done := done ++ gap.text ++ word
        let gap := plainGap (c.skip word.length)
        if gap.text.isEmpty ∨ gap.cursor.next = '#' ∨ (!inFlow ∧ gap.cursor.column < indent) then
          (done, gap)
        else plainFrom inFlow indent fuel gap done

/-- A plain scalar that has to stand at least at a column, with the gap behind it. -/
def plain (inFlow : Bool) (indent : Int) (c : Cursor) : List Char × Gap :=
  plainFrom inFlow indent (c.rest.length + 1) ⟨[], false, c⟩ []

end Flow

end Yaml

end FaultDesk
