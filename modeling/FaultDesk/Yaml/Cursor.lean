/-!
A place in a YAML text. Line ends have been made single characters before; the end of the text
counts as a character of its own, which the text never holds.
-/

namespace FaultDesk

namespace Yaml

/-- Why a text cannot be taken. -/
inductive Malformed where
  /-- The text is no YAML document, or holds what no value stands for. -/
  | document
  /-- An escape names a code point beyond the last one. -/
  | codePoint
  /-- An escape names a number too large for any code point. -/
  | codeNumber
deriving DecidableEq, Repr

structure Cursor where
  rest : List Char
  index : Nat
  line : Nat
  column : Nat
deriving Repr

/-- What stands behind the last character. -/
def endMark : Char := '\x00'

def isBreak (c : Char) : Bool := c == '\n' || c == '\x85' || c == '\u2028' || c == '\u2029'

/-- A line end or the end of the text. -/
def isBreakOrEnd (c : Char) : Bool := isBreak c || c == endMark

/-- Space, line end, or the end of the text. -/
def isSpaceOrEnd (c : Char) : Bool := c == ' ' || isBreakOrEnd c

/-- Space, tab, line end, or the end of the text. -/
def isGap (c : Char) : Bool := c == '\t' || isSpaceOrEnd c

/-- A character of names: an ASCII letter or digit, a hyphen or an underscore. -/
def isNameChar (c : Char) : Bool := c.isAlphanum || c == '-' || c == '_'

namespace Cursor

def start (cs : List Char) : Cursor := ⟨cs, 0, 0, 0⟩

/-- The character so many places ahead. -/
def peek (c : Cursor) (n : Nat) : Char := c.rest.getD n endMark

def next (c : Cursor) : Char := c.peek 0

/-- One character further. The byte order mark takes no column. -/
def step (c : Cursor) : Cursor :=
  match c.rest with
  | [] => c
  | x :: rest =>
    if isBreak x then ⟨rest, c.index + 1, c.line + 1, 0⟩
    else ⟨rest, c.index + 1, c.line, if x = '\uFEFF' then c.column else c.column + 1⟩

def skip : Nat → Cursor → Cursor
  | 0, c => c
  | n + 1, c => skip n c.step

/-- The characters up to the first that fails the test, and the place behind them. -/
def takeWhile (p : Char → Bool) (c : Cursor) : List Char × Cursor :=
  let cs := c.rest.takeWhile p
  (cs, c.skip cs.length)

def skipWhile (p : Char → Bool) (c : Cursor) : Cursor := (c.takeWhile p).2

def skipSpaces (c : Cursor) : Cursor := c.skipWhile (· == ' ')

/-- Behind a comment, if one starts here. -/
def skipComment (c : Cursor) : Cursor :=
  if c.next = '#' then c.skipWhile (!isBreak ·) else c

/-- The line end that starts here, and the place behind it. The two common ones count as one. -/
def lineEnd (c : Cursor) : List Char × Cursor :=
  if c.next = '\n' ∨ c.next = '\x85' then (['\n'], c.step)
  else if isBreak c.next then ([c.next], c.step)
  else ([], c)

/-- Whether three such characters and a gap start here. -/
def marks (c : Cursor) (x : Char) : Bool :=
  c.rest.take 3 == [x, x, x] && isGap (c.peek 3)

/-- Whether a line that separates documents starts here, its column aside. -/
def separates (c : Cursor) : Bool := c.marks '-' || c.marks '.'

end Cursor

end Yaml

end FaultDesk
