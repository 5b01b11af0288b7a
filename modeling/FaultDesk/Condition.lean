import FaultDesk.Datum.Shown

/-!
The comparisons a rule can make. Both sides are compared as numbers when both stand for one;
otherwise only equality applies, on the texts of the two values.
-/

namespace FaultDesk

inductive Condition where
  | gt
  | lt
  | gte
  | lte
  | equals
  | neq
deriving DecidableEq, Repr, Inhabited

namespace Condition

def name : Condition → String
  | gt => "gt"
  | lt => "lt"
  | gte => "gte"
  | lte => "lte"
  | equals => "equals"
  | neq => "neq"

def all : List Condition := [gt, lt, gte, lte, equals, neq]

def ofName? (s : String) : Option Condition := all.find? (·.name == s)

theorem ofName?_name (c : Condition) : ofName? c.name = some c := by cases c <;> rfl

/-- The comparison of two numbers. -/
def compare : Condition → Double → Double → Bool
  | gt, a, t => t.lt a
  | lt, a, t => a.lt t
  | gte, a, t => t.le a
  | lte, a, t => a.le t
  | equals, a, t => a.eq t
  | neq, a, t => !a.eq t

/-- The comparison of two values that do not both stand for a number. -/
def compareTexts : Condition → Datum → Datum → Except Failure Bool
  | equals, a, t => do return (← a.written) == (← t.written)
  | neq, a, t => do return (← a.written) != (← t.written)
  | _, _, _ => .ok false

/-- Whether a condition holds between a reading and a threshold. -/
def eval (c : Condition) (actual threshold : Datum) : Except Failure Bool := do
  let a ← actual.number?
  let t ← threshold.number?
  match a, t with
  | some x, some y => return c.compare x y
  | _, _ => c.compareTexts actual threshold

/-- The condition that a value names. -/
def named? : Datum → Option Condition
  | .text s => ofName? s
  | _ => none

/-- A condition given as a value: a value that cannot be a key fails, one that names no condition
never holds. -/
def evalNamed (condition actual threshold : Datum) : Except Failure Bool :=
  if condition.isKey then
    match named? condition with
    | some c => c.eval actual threshold
    | none => .ok false
  else .error .notAKey

end Condition

end FaultDesk
