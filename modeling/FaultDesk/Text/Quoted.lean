import FaultDesk.Text.Visible

/-!
Quoted texts. In lists and messages a text is shown between apostrophes, or between double quotes
when it holds an apostrophe and no double quote; hidden characters are written as escapes. In JSON
it is shown between double quotes, in ASCII only.
-/

namespace FaultDesk

namespace Text

/-- A number in hexadecimal with at least `width` digits. -/
def hex (width n : Nat) : List Char :=
  let ds := Nat.toDigits 16 n
  List.replicate (width - ds.length) '0' ++ ds

/-- An escape for a hidden character: two, four or eight hexadecimal digits. -/
def hiddenEscape (code : Nat) : List Char :=
  if code < 0x100 then '\\' :: 'x' :: hex 2 code
  else if code < 0x10000 then '\\' :: 'u' :: hex 4 code
  else '\\' :: 'U' :: hex 8 code

/-- One character inside quotes of the given kind. -/
def quotedChar (quote c : Char) : List Char :=
  if c = quote ∨ c = '\\' then ['\\', c]
  else if c = '\n' then ['\\', 'n']
  else if c = '\r' then ['\\', 'r']
  else if c = '\t' then ['\\', 't']
  else if isVisible c then [c]
  else hiddenEscape c.toNat

/-- The mark a text is quoted with. -/
def quoteMark (cs : List Char) : Char :=
  if cs.contains '\x27' && !cs.contains '"' then '"' else '\x27'

/-- A text as it is shown inside lists and messages. -/
def quoted (s : String) : String :=
  let mark := quoteMark s.toList
  String.ofList (mark :: (s.toList.flatMap (quotedChar mark) ++ [mark]))

/-- A code point above the basic plane as two units of sixteen bits. -/
def surrogates (code : Nat) : Nat × Nat :=
  (0xd800 + (code - 0x10000) / 0x400, 0xdc00 + (code - 0x10000) % 0x400)

/-- One character inside a JSON text: printable ASCII stays, the rest is escaped. -/
def jsonChar (c : Char) : List Char :=
  if c = '"' ∨ c = '\\' then ['\\', c]
  else if c = '\n' then ['\\', 'n']
  else if c = '\r' then ['\\', 'r']
  else if c = '\t' then ['\\', 't']
  else if c.toNat = 8 then ['\\', 'b']
  else if c.toNat = 12 then ['\\', 'f']
  else if 32 ≤ c.toNat ∧ c.toNat < 127 then [c]
  else if c.toNat < 0x10000 then '\\' :: 'u' :: hex 4 c.toNat
  else
    let (high, low) := surrogates c.toNat
    '\\' :: 'u' :: hex 4 high ++ '\\' :: 'u' :: hex 4 low

/-- A text as JSON writes it. -/
def json (s : String) : String := String.ofList ('"' :: (s.toList.flatMap jsonChar ++ ['"']))

end Text

end FaultDesk
