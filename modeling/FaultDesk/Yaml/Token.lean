import FaultDesk.Yaml.Block

/-!
The tokens of a YAML text. Blocks show by indentation, so a token is put in where one starts and
where one ends; a key shows only by the colon behind it, so its mark is put in once the colon comes.
-/

namespace FaultDesk

namespace Yaml

inductive Token where
  /-- A directive for the version, with its major number. -/
  | version (major : Nat)
  /-- A directive that a handle stands for the beginning of tags. -/
  | handle (name start : String)
  /-- A directive of another kind. -/
  | directive
  | documentStart
  | documentEnd
  | sequenceStart
  | mappingStart
  | blockEnd
  | flowSequenceStart
  | flowSequenceEnd
  | flowMappingStart
  | flowMappingEnd
  | key
  | value
  | blockEntry
  | flowEntry
  | alias (name : String)
  | anchor (name : String)
  | tag (handle : Option String) (rest : String)
  | scalar (plain : Bool) (text : String)
deriving DecidableEq, Repr

/-- A place where a key may have started, to be known as one by a colon on the same line. -/
structure PossibleKey where
  /-- The number of tokens in front of it. -/
  place : Nat
  /-- Whether nothing but a key can stand there. -/
  required : Bool
  index : Nat
  line : Nat
  column : Nat

structure Lexer where
  cursor : Cursor
  tokens : Array Token
  /-- The number of open flow brackets. -/
  depth : Nat
  /-- The column of the innermost block; less than zero outside all of them. -/
  indent : Int
  outer : List Int
  /-- Whether a key may start here. -/
  keyAllowed : Bool
  /-- The possible key of each depth. -/
  keys : List (Nat × PossibleKey)

namespace Lexer

def start (cs : List Char) : Lexer := ⟨.start cs, #[], 0, -1, [], true, []⟩

def inFlow (l : Lexer) : Bool := l.depth != 0

def emit (l : Lexer) (t : Token) : Lexer := { l with tokens := l.tokens.push t }

def isLate (l : Lexer) (k : PossibleKey) : Bool :=
  k.line != l.cursor.line || decide (l.cursor.index - k.index > 1024)

/-- Drops keys whose line has ended or that are too long. -/
def dropLate (l : Lexer) : Except Malformed Lexer :=
  if l.keys.any fun (_, k) => l.isLate k && k.required then .error .document
  else .ok { l with keys := l.keys.filter fun (_, k) => !l.isLate k }

/-- Drops the possible key of this depth. -/
def dropKey (l : Lexer) : Except Malformed Lexer :=
  match l.keys.lookup l.depth with
  | some k =>
    if k.required then .error .document
    else .ok { l with keys := l.keys.filter (·.1 != l.depth) }
  | none => .ok l

/-- Notes that a key may start here. -/
def noteKey (l : Lexer) : Except Malformed Lexer :=
  if l.keyAllowed then do
    let l ← l.dropKey
    let c := l.cursor
    let k : PossibleKey :=
      ⟨l.tokens.size, !l.inFlow && l.indent == c.column, c.index, c.line, c.column⟩
    return { l with keys := (l.depth, k) :: l.keys }
  else .ok l

/-- Ends the blocks that stand deeper than a column. -/
def closeBlocks (column : Int) : Nat → Lexer → Lexer
  | 0, l => l
  | fuel + 1, l =>
    if l.indent > column then
      match l.outer with
      | i :: rest => closeBlocks column fuel { l.emit .blockEnd with indent := i, outer := rest }
      | [] => l
    else l

def unwind (l : Lexer) (column : Int) : Lexer :=
  if l.inFlow then l else closeBlocks column (l.outer.length + 1) l

/-- Starts a block at a column, if it is deeper than the innermost one. -/
def openBlock (l : Lexer) (column : Int) : Option Lexer :=
  if l.indent < column then some { l with indent := column, outer := l.indent :: l.outer } else none

/-- Puts a token in front of those from a place on. -/
def insert (l : Lexer) (place : Nat) (t : Token) : Lexer :=
  { l with tokens := l.tokens.take place ++ #[t] ++ l.tokens.drop place }

def skip (l : Lexer) (n : Nat) : Lexer := { l with cursor := l.cursor.skip n }

/-- Over spaces, comments and line ends to the next token. A key may start on a new line. -/
def toToken : Nat → Lexer → Lexer
  | 0, l => l
  | fuel + 1, l =>
    let c := l.cursor.skipSpaces.skipComment
    if isBreak c.next then
      toToken fuel { l with cursor := c.lineEnd.2, keyAllowed := l.keyAllowed || !l.inFlow }
    else { l with cursor := c }

def finish (l : Lexer) : Except Malformed Lexer := (l.unwind (-1)).dropKey

/-- Characters that tags are made of, an escape's mark among them. -/
def isTagChar (c : Char) : Bool := c.isAlphanum || "-;/?:@&=+$,_.!~*\x27()[]%".toList.contains c

/-- The octets of escapes that follow each other. -/
def tagOctets : Nat → Cursor → List UInt8 → Except Malformed (List UInt8 × Cursor)
  | 0, c, done => .ok (done, c)
  | fuel + 1, c, done =>
    if c.next = '%' then
      let ds := c.step.rest.take 2
      if ds.length = 2 ∧ ds.all Flow.isHexDigit then
        tagOctets fuel (c.skip 3) (done ++ [UInt8.ofNat (Flow.hexValue ds)])
      else .error .document
    else .ok (done, c)

/-- The characters of a tag, escapes resolved. -/
def tagChars : Nat → Cursor → List Char → Except Malformed (List Char × Cursor)
  | 0, c, done => .ok (done, c)
  | fuel + 1, c, done =>
    if c.next = '%' then do
      let (bs, c) ← tagOctets (fuel + 1) c []
      match String.fromUTF8? (ByteArray.mk bs.toArray) with
      | some s => tagChars fuel c (done ++ s.toList)
      | none => throw .document
    else if isTagChar c.next then tagChars fuel c.step (done ++ [c.next])
    else .ok (done, c)

/-- A part of a tag that must not be empty. -/
def tagText (c : Cursor) : Except Malformed (String × Cursor) := do
  let start := c.rest.length
  let (cs, c) ← tagChars (c.rest.length + 1) c []
  if c.rest.length = start then throw .document else return (String.ofList cs, c)

/-- A handle: a mark, or a name between two marks. -/
def tagHandle (c : Cursor) : Except Malformed (String × Cursor) :=
  if c.next ≠ '!' then .error .document
  else
    let name := (c.step.takeWhile isNameChar).1
    let after := c.skip (name.length + 1)
    if c.peek 1 = ' ' then .ok ("!", c.step)
    else if after.next = '!' then .ok (String.ofList ('!' :: name ++ ['!']), after.step)
    else .error .document

/-- A number of a version. -/
def versionNumber (c : Cursor) : Except Malformed (Nat × Cursor) :=
  let (ds, c) := c.takeWhile Char.isDigit
  if ds.isEmpty then .error .document
  else .ok (ds.foldl (fun v d => v * 10 + (d.toNat - 48)) 0, c)

/-- A directive, up to the end of its line; the cursor stands at its mark. -/
def directive (c : Cursor) : Except Malformed (Token × Cursor) := do
  let (name, c) := c.step.takeWhile isNameChar
  if name.isEmpty ∨ !isSpaceOrEnd c.next then throw .document
  let (t, c) ←
    if name = "YAML".toList then do
      let (major, c) ← versionNumber c.skipSpaces
      if c.next ≠ '.' then throw .document
      let (_, c) ← versionNumber c.step
      if !isSpaceOrEnd c.next then throw .document
      pure (Token.version major, c)
    else if name = "TAG".toList then do
      let (h, c) ← tagHandle c.skipSpaces
      if c.next ≠ ' ' then throw .document
      let (p, c) ← tagText c.skipSpaces
      if !isSpaceOrEnd c.next then throw .document
      pure (Token.handle h p, c)
    else pure (Token.directive, c.skipWhile (!isBreak ·))
  let c := c.skipSpaces.skipComment
  if isBreakOrEnd c.next then return (t, c.lineEnd.2) else throw .document

/-- The name of an anchor or alias; the cursor stands at its mark. -/
def anchorName (c : Cursor) : Except Malformed (String × Cursor) :=
  let (name, c) := c.step.takeWhile isNameChar
  if name.isEmpty ∨ !(isGap c.next || "?:,]\x7d%@`".toList.contains c.next) then .error .document
  else .ok (String.ofList name, c)

/-- A tag; the cursor stands at its mark. -/
def tag (c : Cursor) : Except Malformed (Token × Cursor) := do
  let (t, c) ←
    if c.peek 1 = '<' then do
      let (rest, c) ← tagText (c.skip 2)
      if c.next ≠ '>' then throw .document
      pure (Token.tag none rest, c.step)
    else if isGap (c.peek 1) then pure (Token.tag none "!", c.step)
    else do
      let word := c.step.rest.takeWhile fun x => !isSpaceOrEnd x
      if word.contains '!' then do
        let (h, c) ← tagHandle c
        let (rest, c) ← tagText c
        pure (Token.tag (some h) rest, c)
      else do
        let (rest, c) ← tagText c.step
        pure (Token.tag (some "!") rest, c)
  if isSpaceOrEnd c.next then return (t, c) else throw .document

/-- A token that may start a key, and the place behind it. -/
def keyLike (l : Lexer) (read : Cursor → Except Malformed (Token × Cursor)) :
    Except Malformed Lexer := do
  let l ← l.noteKey
  let (t, c) ← read l.cursor
  return { l.emit t with cursor := c, keyAllowed := false }

def openFlow (l : Lexer) (t : Token) : Except Malformed Lexer := do
  let l ← l.noteKey
  return { (l.emit t).skip 1 with depth := l.depth + 1, keyAllowed := true }

def closeFlow (l : Lexer) (t : Token) : Except Malformed Lexer := do
  let l ← l.dropKey
  return { (l.emit t).skip 1 with depth := l.depth - 1, keyAllowed := false }

def documentMark (l : Lexer) (t : Token) : Except Malformed Lexer := do
  let l ← l.finish
  return { (l.emit t).skip 3 with keyAllowed := false }

/-- Starts a block for a mark that stands where a key may. -/
def blockFor (l : Lexer) (t : Token) : Except Malformed Lexer :=
  if l.inFlow then .ok l
  else if l.keyAllowed then .ok ((l.openBlock l.cursor.column).elim l (·.emit t))
  else .error .document

def blockEntry (l : Lexer) : Except Malformed Lexer := do
  let l ← l.blockFor .sequenceStart
  let l ← { l with keyAllowed := true }.dropKey
  return (l.emit .blockEntry).skip 1

def keyMark (l : Lexer) : Except Malformed Lexer := do
  let l ← l.blockFor .mappingStart
  let l ← { l with keyAllowed := !l.inFlow }.dropKey
  return (l.emit .key).skip 1

/-- A colon: what was a possible key is one now. -/
def valueMark (l : Lexer) : Except Malformed Lexer := do
  match l.keys.lookup l.depth with
  | some k =>
    let l := { l with keys := l.keys.filter (·.1 != l.depth), keyAllowed := false }
    let l := l.insert k.place .key
    let l := if l.inFlow then l else (l.openBlock k.column).elim l (·.insert k.place .mappingStart)
    return (l.emit .value).skip 1
  | none =>
    let l ← l.blockFor .mappingStart
    let l ← { l with keyAllowed := !l.inFlow }.dropKey
    return (l.emit .value).skip 1

def blockScalar (l : Lexer) : Except Malformed Lexer := do
  let l ← { l with keyAllowed := true }.dropKey
  let (text, c) ← Block.scalar l.indent l.cursor
  return { l.emit (.scalar false (String.ofList text)) with cursor := c }

def quotedScalar (c : Cursor) : Except Malformed (Token × Cursor) := do
  let (text, c) ← Flow.quoted c
  return (.scalar false (String.ofList text), c)

def plainScalar (l : Lexer) : Except Malformed Lexer := do
  let l ← l.noteKey
  let (text, gap) := Flow.plain l.inFlow (l.indent + 1) l.cursor
  return { l.emit (.scalar true (String.ofList text)) with
    cursor := gap.cursor, keyAllowed := gap.crossed }

/-- Characters no plain scalar starts with. -/
def isMark (c : Char) : Bool := isGap c || "-?:,[]\x7b\x7d#&*!|>\x27\"%@`".toList.contains c

def startsPlain (l : Lexer) : Bool :=
  let c := l.cursor
  !isMark c.next || (!isGap (c.peek 1) && (c.next == '-' || (!l.inFlow && (c.next == '?' || c.next == ':'))))

/-- Reads one token. None at the end of the text. -/
def token (l : Lexer) : Except Malformed (Option Lexer) := do
  let l ← (l.toToken (l.cursor.rest.length + 1)).dropLate
  let l := l.unwind l.cursor.column
  let c := l.cursor
  let atStart := c.column = 0
  let apart := isGap (c.peek 1)
  if c.rest.isEmpty then return none
  else if c.next = '%' ∧ atStart then
    let l ← l.finish
    let (t, c) ← directive c
    return some { l.emit t with cursor := c, keyAllowed := false }
  else if atStart ∧ c.marks '-' then some <$> l.documentMark .documentStart
  else if atStart ∧ c.marks '.' then some <$> l.documentMark .documentEnd
  else if c.next = '[' then some <$> l.openFlow .flowSequenceStart
  else if c.next = '\x7b' then some <$> l.openFlow .flowMappingStart
  else if c.next = ']' then some <$> l.closeFlow .flowSequenceEnd
  else if c.next = '\x7d' then some <$> l.closeFlow .flowMappingEnd
  else if c.next = ',' then
    let l ← { l with keyAllowed := true }.dropKey
    return some ((l.emit .flowEntry).skip 1)
  else if c.next = '-' ∧ apart then some <$> l.blockEntry
  else if c.next = '?' ∧ (l.inFlow ∨ apart) then some <$> l.keyMark
  else if c.next = ':' ∧ (l.inFlow ∨ apart) then some <$> l.valueMark
  else if c.next = '*' then
    some <$> l.keyLike fun c => (anchorName c).map fun (n, c) => (.alias n, c)
  else if c.next = '&' then
    some <$> l.keyLike fun c => (anchorName c).map fun (n, c) => (.anchor n, c)
  else if c.next = '!' then some <$> l.keyLike tag
  else if (c.next = '|' ∨ c.next = '>') ∧ !l.inFlow then some <$> l.blockScalar
  else if c.next = '\x27' ∨ c.next = '"' then some <$> l.keyLike quotedScalar
  else if l.startsPlain then some <$> l.plainScalar
  else throw .document

/-- Reads all tokens. -/
def run : Nat → Lexer → Except Malformed (List Token)
  | 0, _ => .error .document
  | fuel + 1, l => do
    match ← l.token with
    | some l => run fuel l
    | none =>
      let l ← (l.toToken (l.cursor.rest.length + 1)).dropLate
      let l ← l.finish
      return l.tokens.toList

end Lexer

/-- Characters a text may hold. -/
def isPrintable (c : Char) : Bool :=
  let n := c.toNat
  n = 9 || n = 10 || n = 13 || (32 ≤ n && n ≤ 126) || n = 0x85 || (0xa0 ≤ n && n ≤ 0xd7ff) ||
    (0xe000 ≤ n && n ≤ 0xfffd) || 0x10000 ≤ n

/-- The tokens of a text. A byte order mark in front is passed over. -/
def tokens (s : String) : Except Malformed (List Token) :=
  let cs := s.toList
  if cs.all isPrintable then
    let l := Lexer.start cs
    (if cs.head? = some '\uFEFF' then l.skip 1 else l).run (cs.length + 2)
  else .error .document

end Yaml

end FaultDesk
