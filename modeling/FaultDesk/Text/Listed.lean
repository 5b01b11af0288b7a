import FaultDesk.Failure
import FaultDesk.Text.Blank

/-!
Texts listed on one line. Commas part the items; what stands in quotes is taken as it is, a backslash
takes the next character as it is, and a number sign hides the rest of its line. An item of nothing
counts only where it was quoted.
-/

namespace FaultDesk

/-- Where the reading of a list stands. -/
inductive ListPlace where
  /-- Before an item. -/
  | between
  /-- Within an item. -/
  | within
  /-- Within a quotation. -/
  | quotation (mark : Char)
  /-- Behind a backslash, and the quotation it stands in. -/
  | escape (inside : Option Char)
  /-- Behind a number sign. -/
  | hidden
deriving DecidableEq, Repr

/-- A list that has been read so far. The item and the items stand in reverse. -/
structure ListReading where
  place : ListPlace
  item : List Char
  quoted : Bool
  items : List (List Char)
deriving DecidableEq, Repr

namespace ListReading

def start : ListReading := ⟨.between, [], false, []⟩

/-- Ends the item, which counts when it holds something or was quoted. -/
def ended (r : ListReading) (place : ListPlace) : ListReading :=
  if r.item.isEmpty && !r.quoted then { r with place }
  else ⟨place, [], false, r.item.reverse :: r.items⟩

/-- A character outside a quotation. -/
def plain (r : ListReading) (c : Char) : ListReading :=
  match c with
  | ',' => r.ended .between
  | '#' => r.ended .hidden
  | '\\' => { r with place := .escape none }
  | '"' | '\'' => { r with place := .quotation c, quoted := true }
  | _ => { r with place := .within, item := c :: r.item }

def next (r : ListReading) (c : Char) : ListReading :=
  match r.place with
  | .between | .within => r.plain c
  | .hidden => if c == '\n' then { r with place := .between } else r
  | .quotation mark =>
    if c == mark then { r with place := .within }
    else if c == '\\' && mark == '"' then { r with place := .escape (some mark) }
    else { r with item := c :: r.item }
  | .escape none => { r with place := .within, item := c :: r.item }
  | .escape (some mark) =>
    let item := if c == mark || c == '\\' then r.item else '\\' :: r.item
    { r with place := .quotation mark, item := c :: item }

/-- The items, unless the list ends too early. -/
def finish (r : ListReading) : Except Failure (List (List Char)) :=
  match r.place with
  | .quotation _ => .error .unclosedQuotation
  | .escape _ => .error .nothingEscaped
  | _ => .ok (r.ended .between).items.reverse

end ListReading

namespace Text

/-- The items of a list without the blanks around them. -/
def listed (s : String) : Except Failure (List String) := do
  let items ← (s.toList.foldl ListReading.next .start).finish
  return items.map fun cs => String.ofList (trimmed cs)

end Text

end FaultDesk
