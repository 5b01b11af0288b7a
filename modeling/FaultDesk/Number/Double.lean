/-!
Binary64 numbers held exactly. A finite one is a sign and a whole number of the smallest positive
step `2 ^ (-1074)`; the step counts that binary64 can hold are those that are multiples of the gap
between neighbours at their size. Arithmetic is done on whole numbers and rounded once, to the
nearest, ties to the even neighbour.
-/

namespace FaultDesk

/-- The quotient rounded to a whole number; a tie goes to the even one. -/
def roundedQuotient (num den : Nat) : Nat :=
  let q := num / den
  let r := num % den
  if 2 * r < den then q else if den < 2 * r then q + 1 else q + q % 2

theorem roundedQuotient_one (n : Nat) : roundedQuotient n 1 = n := by
  simp [roundedQuotient, Nat.mod_one]

/-- The signed quotient rounded to a whole number; a tie goes to the even one. -/
def roundedQuotientInt (num : Int) (den : Nat) : Int :=
  match num with
  | .ofNat n => roundedQuotient n den
  | .negSucc n => -(roundedQuotient (n + 1) den : Int)

namespace Double

/-- How many steps make one unit. -/
def unit : Nat := Nat.pow 2 1074

/-- The first step count that is too large. -/
def limit : Nat := Nat.pow 2 2098

/-- The distance, in steps, between neighbouring numbers at the size of `n`: 53 bits are kept. -/
def gap (n : Nat) : Nat := Nat.pow 2 (n.log2 + 1 - 53)

theorem gap_pos (n : Nat) : 0 < gap n := Nat.two_pow_pos _

/-- The step counts of finite numbers. -/
def Held (n : Nat) : Prop := n % gap n = 0 ∧ n < limit

instance (n : Nat) : Decidable (Held n) := inferInstanceAs (Decidable (_ ∧ _))

theorem limit_pos : 0 < limit := by decide +kernel

theorem held_zero : Held 0 := ⟨Nat.zero_mod _, limit_pos⟩

end Double

/-- A binary64 number; `steps` counts multiples of `2 ^ (-1074)`. -/
inductive Double where
  | nan
  | infinite (negative : Bool)
  | finite (negative : Bool) (steps : Nat) (held : Double.Held steps)
deriving DecidableEq, Repr

namespace Double

/-- The number of that many steps, infinite when there is none. -/
def pack (negative : Bool) (steps : Nat) : Double :=
  if h : Held steps then .finite negative steps h else .infinite negative

def zero : Double := .finite false 0 held_zero

instance : Inhabited Double := ⟨zero⟩

/-- The number nearest to `num / den` steps; a tie goes to the even neighbour. -/
def ofSteps (negative : Bool) (num den : Nat) : Double :=
  let g := gap (num / den)
  pack negative (roundedQuotient num (den * g) * g)

/-- The number nearest to `num / den`. -/
def ofRatio (negative : Bool) (num den : Nat) : Double :=
  ofSteps negative (num * unit) den

def ofNat (n : Nat) : Double := ofRatio false n 1

def ofInt (i : Int) : Double := ofRatio (decide (i < 0)) i.natAbs 1

/-- The number nearest to `digits · 10 ^ exponent`. Beyond 400 places on either side the answer is
known without the power. -/
def ofDecimal (negative : Bool) (digits : Nat) (exponent : Int) : Double :=
  if digits = 0 then pack negative 0
  else
    let lead := (Nat.toDigits 10 digits).length + exponent
    if lead > 400 then .infinite negative
    else if lead < -400 then pack negative 0
    else if exponent < 0 then ofRatio negative digits (Nat.pow 10 exponent.natAbs)
    else ofRatio negative (digits * Nat.pow 10 exponent.natAbs) 1

def isNan : Double → Bool
  | .nan => true
  | _ => false

def isFinite : Double → Bool
  | .finite .. => true
  | _ => false

def isNegative : Double → Bool
  | .nan => false
  | .infinite n => n
  | .finite n _ _ => n

/-- The value in steps, with its sign; only finite numbers have one. -/
def signed? : Double → Option Int
  | .finite n s _ => some (if n then -(s : Int) else s)
  | _ => none

/-- Whether a finite number is a whole one. -/
def isWhole : Double → Bool
  | .finite _ s _ => s % unit == 0
  | _ => false

/-- The whole part of a finite number, cut toward zero. -/
def whole? : Double → Option Int
  | .finite n s _ => some (if n then -((s / unit : Nat) : Int) else (s / unit : Nat))
  | _ => none

/-- The part of a finite number behind its whole part, with the number's sign. -/
def fraction? : Double → Option Double
  | .finite n s _ => some (pack n (s % unit))
  | _ => none

def isZero : Double → Bool
  | .finite _ s _ => s == 0
  | _ => false

/-- Where a number stands on the line: below all finite ones, among them, or above; `nan` nowhere. -/
def place? : Double → Option (Int × Int)
  | .nan => none
  | .infinite true => some (-1, 0)
  | .infinite false => some (1, 0)
  | .finite n s _ => some (0, if n then -(s : Int) else s)

/-- Numeric order; `nan` is in no relation, and both zeros are one place. -/
def lt (a b : Double) : Bool :=
  match a.place?, b.place? with
  | some (i, x), some (j, y) => decide (i < j) || (i == j && decide (x < y))
  | _, _ => false

/-- Numeric equality. -/
def eq (a b : Double) : Bool :=
  match a.place?, b.place? with
  | some p, some q => p == q
  | _, _ => false

def le (a b : Double) : Bool := lt a b || eq a b

theorem eq_comm (a b : Double) : eq a b = eq b a := by
  unfold eq
  cases a.place? <;> cases b.place? <;> simp [Bool.beq_comm]

theorem lt_irrefl (a : Double) : lt a a = false := by
  unfold lt
  cases h : a.place? <;> simp

def neg : Double → Double
  | .nan => .nan
  | .infinite n => .infinite (!n)
  | .finite n s h => .finite (!n) s h

/-- The product, rounded once. -/
def mul : Double → Double → Double
  | .finite n s _, .finite m t _ => ofSteps (n != m) (s * t) unit
  | .infinite n, .infinite m => .infinite (n != m)
  | .infinite n, .finite m t _ => if t = 0 then .nan else .infinite (n != m)
  | .finite n s _, .infinite m => if s = 0 then .nan else .infinite (n != m)
  | _, _ => .nan

/-- The product with a small whole number, rounded once. -/
def scale (a : Double) (k : Nat) : Double := mul a (ofNat k)

/-- The sum, rounded once. A zero sum is positive unless both addends are negative. -/
def add : Double → Double → Double
  | .finite n s _, .finite m t _ =>
    let x : Int := (if n then -(s : Int) else s) + (if m then -(t : Int) else t)
    if x = 0 then pack (n && m) 0 else ofSteps (decide (x < 0)) x.natAbs 1
  | .infinite n, .infinite m => if n = m then .infinite n else .nan
  | .infinite n, .finite .. => .infinite n
  | .finite .., .infinite m => .infinite m
  | _, _ => .nan

end Double

end FaultDesk
