import FaultDesk.Yaml.Flow

/-!
Block scalars: lines under a header, kept as they are or folded. The header may say how deep the
lines stand and what becomes of the line ends behind the last one.
-/

namespace FaultDesk

namespace Yaml

namespace Block

/-- What becomes of the line ends at the end: one is kept, none, or all. -/
inductive Ending where
  | clip
  | strip
  | keep
deriving DecidableEq, Repr

def ending? (c : Char) : Option Ending :=
  if c = '+' then some .keep else if c = '-' then some .strip else none

/-- A depth of lines from 1 to 9. -/
def depth? (c : Char) : Except Malformed (Option Nat) :=
  if c = '0' then .error .document
  else if c.isDigit then .ok (some (c.toNat - 48))
  else .ok none

/-- The marks of the header, in either order. -/
def header (c : Cursor) : Except Malformed (Ending × Option Nat × Cursor) := do
  let (e, d, c) ←
    match ending? c.next with
    | some e => do
      match ← depth? c.step.next with
      | some d => pure (e, some d, c.step.step)
      | none => pure (e, none, c.step)
    | none => do
      match ← depth? c.next with
      | some d =>
        match ending? c.step.next with
        | some e => pure (e, some d, c.step.step)
        | none => pure (.clip, some d, c.step)
      | none => pure (.clip, none, c)
  if isSpaceOrEnd c.next then return (e, d, c) else throw .document

/-- The rest of the header's line: spaces and a comment. -/
def headerEnd (c : Cursor) : Except Malformed Cursor :=
  let c := c.skipSpaces.skipComment
  if isBreakOrEnd c.next then .ok c.lineEnd.2 else .error .document

/-- Empty lines at the start, and the greatest column reached in them. -/
def measure : Nat → Cursor → List Char → Nat → List Char × Nat × Cursor
  | 0, c, done, most => (done, most, c)
  | fuel + 1, c, done, most =>
    if c.next = ' ' then measure fuel c.step done (max most c.step.column)
    else if isBreak c.next then
      let (e, c) := c.lineEnd
      measure fuel c (done ++ e) most
    else (done, most, c)

/-- Spaces up to a column. -/
def approach (indent : Nat) : Nat → Cursor → Cursor
  | 0, c => c
  | fuel + 1, c => if c.column < indent ∧ c.next = ' ' then approach indent fuel c.step else c

/-- Empty lines, and the spaces up to a column on the next line. -/
def breaks (indent : Nat) : Nat → Cursor → List Char → List Char × Cursor
  | 0, c, done => (done, c)
  | fuel + 1, c, done =>
    let c := approach indent indent c
    if isBreak c.next then
      let (e, c) := c.lineEnd
      breaks indent fuel c (done ++ e)
    else (done, c)

def isIndented (c : Char) : Bool := c == ' ' || c == '\t'

/-- Reads lines at a column. `done` is the text so far, `waiting` the empty lines in front, and
`last` the end of the last line. -/
def lines (fold : Bool) (indent : Nat) : Nat → Cursor → List Char → List Char → List Char →
    List Char × List Char × List Char × Cursor
  | 0, c, done, last, waiting => (done, last, waiting, c)
  | fuel + 1, c, done, last, waiting =>
    if c.column = indent ∧ !c.rest.isEmpty then
      let flush := !isIndented c.next
      let (text, c) := c.takeWhile (!isBreak ·)
      let done := done ++ waiting ++ text
      let (last, c) := c.lineEnd
      let (waiting, c) := breaks indent (c.rest.length + 1) c []
      let between :=
        if c.column = indent ∧ !c.rest.isEmpty then
          if fold ∧ last = ['\n'] ∧ flush ∧ !isIndented c.next then
            if waiting.isEmpty then [' '] else []
          else last
        else []
      if c.column = indent ∧ !c.rest.isEmpty then
        lines fold indent fuel c (done ++ between) last waiting
      else (done, last, waiting, c)
    else (done, last, waiting, c)

/-- A block scalar; the cursor stands at its mark, and `outer` is the column of the lines around
it. -/
def scalar (outer : Int) (c : Cursor) : Except Malformed (List Char × Cursor) := do
  let fold := c.next = '>'
  let (e, d, c) ← header c.step
  let c ← headerEnd c
  let least : Nat := (max (outer + 1) 1).toNat
  let fuel := c.rest.length + 1
  let (indent, waiting, c) :=
    match d with
    | some d =>
      let indent := least + d - 1
      let (waiting, c) := breaks indent fuel c []
      (indent, waiting, c)
    | none =>
      let (waiting, most, c) := measure fuel c [] 0
      (max least most, waiting, c)
  let (done, last, waiting, c) := lines fold indent fuel c [] [] waiting
  let text := match e with
    | .strip => done
    | .clip => done ++ last
    | .keep => done ++ last ++ waiting
  return (text, c)

end Block

end Yaml

end FaultDesk
