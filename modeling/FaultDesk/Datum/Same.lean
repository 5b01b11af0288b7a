import FaultDesk.Datum.Basic

/-!
Equality of values. Numbers of all kinds and booleans are compared by their exact value; NaN equals
nothing. Mappings and sets are compared without regard to order.
-/

namespace FaultDesk

/-- A number on the extended line. -/
inductive Extended where
  | below
  | exact (num : Int) (den : Nat)
  | above
deriving Repr

namespace Extended

def same : Extended → Extended → Bool
  | below, below => true
  | above, above => true
  | exact n d, exact m e => n * e == m * d
  | _, _ => false

def signed (negative : Bool) (n : Nat) : Int := if negative then -(n : Int) else n

def ofDouble : Double → Option Extended
  | .nan => none
  | .infinite n => some (if n then below else above)
  | .finite n s _ => some (exact (signed n s) Double.unit)

def ofDecimal : Decimal → Option Extended
  | .nan .. => none
  | .infinite n => some (if n then below else above)
  | .finite n d e =>
    some (if e < 0 then exact (signed n d) (Nat.pow 10 e.natAbs)
      else exact (signed n (d * Nat.pow 10 e.natAbs)) 1)

end Extended

namespace Datum

/-- The exact value of a number or boolean, NaN aside. -/
def measure? : Datum → Option Extended
  | .truth b => some (.exact (if b then 1 else 0) 1)
  | .int n => some (.exact n 1)
  | .float d => Extended.ofDouble d
  | .decimal d => Extended.ofDecimal d
  | _ => none

def isNumber : Datum → Bool
  | .truth _ => true
  | .int _ => true
  | .float _ => true
  | .decimal _ => true
  | _ => false

/-- Stamps are equal when they show the same instant; one without an offset only equals another
without. -/
def sameStamp (a b : Stamp) : Bool :=
  match a.offset, b.offset with
  | none, none => a.wall == b.wall
  | some o, some p => a.wall - o == b.wall - p
  | _, _ => false

mutual

def same : Datum → Datum → Bool
  | .list xs, b => match b with
    | .list ys => sameItems xs ys
    | _ => false
  | .tuple xs, b => match b with
    | .tuple ys => sameItems xs ys
    | _ => false
  | .set xs, b => match b with
    | .set ys => xs.length == ys.length && sameMembers xs ys
    | _ => false
  | .mapping es, b => match b with
    | .mapping fs => es.length == fs.length && sameEntries es fs
    | _ => false
  | .null, b => b.isNull
  | .text s, b => match b with
    | .text t => s == t
    | _ => false
  | .bytes s, b => match b with
    | .bytes t => s == t
    | _ => false
  | .date s, b => match b with
    | .date t => s == t
    | _ => false
  | .stamp s, b => match b with
    | .stamp t => sameStamp s t
    | _ => false
  | a, b => match a.measure?, b.measure? with
    | some x, some y => x.same y
    | _, _ => false

def sameItems : List Datum → List Datum → Bool
  | [], [] => true
  | x :: xs, y :: ys => same x y && sameItems xs ys
  | _, _ => false

def sameMembers : List Datum → List Datum → Bool
  | [], _ => true
  | x :: xs, ys => ys.any (fun y => same x y) && sameMembers xs ys

def sameEntries : List (Datum × Datum) → List (Datum × Datum) → Bool
  | [], _ => true
  | (k, v) :: es, fs => fs.any (fun f => same k f.1 && same v f.2) && sameEntries es fs

end

end Datum

end FaultDesk
