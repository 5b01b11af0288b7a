import FaultDesk.Text.Ranges

/-!
Blank characters, and text with them taken off both ends.
-/

namespace FaultDesk

/-- The characters that count as blank: spaces, line ends and the four information separators. -/
def blankRanges : List (Nat × Nat) := [
  (0x9, 0xd), (0x1c, 0x20), (0x85, 0x85), (0xa0, 0xa0), (0x1680, 0x1680), (0x2000, 0x200a),
  (0x2028, 0x2029), (0x202f, 0x202f), (0x205f, 0x205f), (0x3000, 0x3000)]

/-- Whether a character is blank. -/
def isBlank (c : Char) : Bool := inRanges c.toNat blankRanges

namespace Text

/-- The characters without the blank ones at either end. -/
def stripped (cs : List Char) : List Char :=
  ((cs.dropWhile isBlank).reverse.dropWhile isBlank).reverse

/-- A text without the blank characters at either end. -/
def strip (s : String) : String := String.ofList (stripped s.toList)

/-- The blank characters of ASCII. -/
def isAsciiBlank (c : Char) : Bool := c == ' ' || (9 ≤ c.toNat && c.toNat ≤ 13)

/-- The characters without the blank ones of ASCII at either end. -/
def trimmed (cs : List Char) : List Char :=
  ((cs.dropWhile isAsciiBlank).reverse.dropWhile isAsciiBlank).reverse

/-- A text, or another in its place when it is empty. -/
def orElse (s other : String) : String := if s.isEmpty then other else s

theorem stripped_nil : stripped [] = [] := rfl

end Text

end FaultDesk
