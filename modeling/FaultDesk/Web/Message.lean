import FaultDesk.Datum.Basic
import FaultDesk.Datum.Shown
import FaultDesk.Rule.Defect

/-!
Requests and responses. Bodies are values; the parameters of a request are texts in the end.
-/

namespace FaultDesk

structure Request where
  method : String
  path : String
  params : List (String × Datum)
  body : Option Datum
deriving Repr

structure Response where
  status : Nat
  body : Datum
deriving Repr

namespace Request

/-- The text of a parameter. -/
def paramText : Datum → String
  | .null => ""
  | .truth b => if b then "true" else "false"
  | d => d.shown

/-- The last text that a parameter is given. -/
def param? (r : Request) (name : String) : Option String :=
  match r.params.lookup name with
  | some (.list ds) => ds.getLast?.map paramText
  | some d => some (paramText d)
  | none => none

end Request

namespace Response

def good (body : Datum) : Response := ⟨200, body⟩

/-- A refusal with a text. -/
def refusal (status : Nat) (detail : String) : Response := ⟨status, .object [("detail", .text detail)]⟩

def place : Place → Datum
  | .field s => .text s
  | .item n => .int n

/-- A refusal of a request that is not as it should be. -/
def unfit (ds : List Defect) : Response :=
  ⟨422, .list (ds.map fun d => .object [("loc", .list (d.path.map place)), ("type", .text d.cause.code),
    ("msg", .text d.cause.message)])⟩

end Response

namespace Datum

mutual

/-- Whether all numbers in a value are finite. -/
def allFinite : Datum → Bool
  | .float d => d.isFinite
  | .list ds | .tuple ds | .set ds => itemsFinite ds
  | .mapping es => entriesFinite es
  | _ => true

def itemsFinite : List Datum → Bool
  | [] => true
  | d :: ds => d.allFinite && itemsFinite ds

def entriesFinite : List (Datum × Datum) → Bool
  | [] => true
  | (_, v) :: es => v.allFinite && entriesFinite es

end

end Datum

end FaultDesk
