import FaultDesk.Datum.Shown

/-!
Messages with conversions: `%s` and its like are replaced by arguments in order, `%(name)s` by the
value of a name, `%%` by a percent sign. Every argument has to be used.
-/

namespace FaultDesk

/-- What stands between the percent sign and the letter of a conversion. -/
structure Conversion where
  key : Option String
  flags : List Char
  width : Nat
  precision : Option Nat
  letter : Char
deriving Repr

/-- The arguments of a message. -/
inductive Arguments where
  | row (values : List Datum)
  /-- One mapping; it is an argument itself until it has been used as one. -/
  | named (entries : List (Datum × Datum)) (used : Bool)

namespace Arguments

/-- A single mapping that is not empty gives the values of names. -/
def ofList : List Datum → Arguments
  | [.mapping (e :: es)] => named (e :: es) false
  | ds => row ds

def next : Arguments → Except Failure (Datum × Arguments)
  | row (d :: ds) => .ok (d, row ds)
  | row [] => .error .wrongKind
  | named es false => .ok (.mapping es, named es true)
  | named _ true => .error .wrongKind

def valueOf (key : String) : Arguments → Except Failure Datum
  | row _ => .error .wrongKind
  | named es _ =>
    match Datum.lookup key es with
    | some d => .ok d
    | none => .error .missingKey

/-- The arguments after the value of a name was used. -/
def afterKey : Arguments → Arguments
  | row ds => row ds
  | named es _ => named es true

/-- Arguments that are left over at the end fail. -/
def finished : Arguments → Except Failure Unit
  | row (_ :: _) => .error .wrongKind
  | _ => .ok ()

end Arguments

namespace Conversion

def has (c : Conversion) (flag : Char) : Bool := c.flags.contains flag

/-- Blanks in front, or behind when the conversion asks for it. -/
def padded (c : Conversion) (cs : List Char) : List Char :=
  let blanks := List.replicate (c.width - cs.length) ' '
  if c.has '-' then cs ++ blanks else blanks ++ cs

/-- A sign and what follows it, padded with zeros between them or with blanks. -/
def paddedNumber (c : Conversion) (negative : Bool) (mark digits : List Char) : List Char :=
  let sign := if negative then ['-'] else if c.has '+' then ['+'] else if c.has ' ' then [' '] else []
  let front := sign ++ mark
  if c.has '0' && !c.has '-' then
    front ++ List.replicate (c.width - front.length - digits.length) '0' ++ digits
  else c.padded (front ++ digits)

/-- A whole number in a base. -/
def whole (c : Conversion) (base : Nat) (mark : List Char) (n : Int) : List Char :=
  let ds := Nat.toDigits base n.natAbs
  let ds := List.replicate ((c.precision.getD 0) - ds.length) '0' ++ ds
  c.paddedNumber (decide (n < 0)) (if c.has '#' then mark else [])
    (if c.letter = 'X' then ds.map Char.toUpper else ds)

def text (c : Conversion) (s : String) : List Char :=
  c.padded (match c.precision with
    | some n => s.toList.take n
    | none => s.toList)

/-- The shown form of a value in ASCII. -/
def asciiOnly (cs : List Char) : List Char :=
  cs.flatMap fun c => if c.toNat < 128 then [c] else Text.hiddenEscape c.toNat

/-- The whole part of a number; other values have none. -/
def wholeOf : Datum → Except Failure Int
  | .truth b => .ok (if b then 1 else 0)
  | .int n => .ok n
  | .float d =>
    match d.whole? with
    | some n => .ok n
    | none => .error (if d.isNan then .nanWhole else .infiniteWhole)
  | .decimal (.finite n d e) =>
    let size := if e < 0 then d / Nat.pow 10 e.natAbs else d * Nat.pow 10 e.natAbs
    .ok (if n then -(size : Int) else size)
  | .decimal (.infinite _) => .error .infiniteWhole
  | .decimal (.nan ..) => .error .nanWhole
  | _ => .error .wrongKind

/-- A whole number; numbers of other kinds fail. -/
def strictWholeOf : Datum → Except Failure Int
  | .truth b => .ok (if b then 1 else 0)
  | .int n => .ok n
  | _ => .error .wrongKind

/-- The digits of a number in front of an exponent. -/
def scientific (places steps : Nat) (mark : Char) : List Char :=
  let s : Scaled := if steps = 0 then ⟨0, 0⟩ else Double.significant (places + 1) steps
  let e : Int := if steps = 0 then 0 else s.exponent + places
  let ds := if steps = 0 then List.replicate (places + 1) '0' else s.figures
  let exponent := Nat.toDigits 10 e.natAbs
  ds.take 1 ++ (if places = 0 then [] else '.' :: ds.drop 1) ++
    mark :: (if e < 0 then '-' else '+') :: (List.replicate (2 - exponent.length) '0' ++ exponent)

/-- Digits without the zeros at the end of a fraction. -/
def withoutZeros (cs : List Char) : List Char :=
  if cs.contains '.' then
    match (cs.reverse.dropWhile (· == '0')) with
    | '.' :: rest => rest.reverse
    | rest => rest.reverse
  else cs

/-- A number with so many digits, plain or with an exponent by its size. -/
def general (figures steps : Nat) (mark : Char) (keep : Bool) : List Char :=
  let count := max figures 1
  let lead : Int := if steps = 0 then 0 else (Double.significant count steps).exponent + count - 1
  if -4 ≤ lead ∧ lead < count then
    let cs := Double.fixedChars (count - 1 - lead).toNat steps
    if keep then cs else withoutZeros cs
  else
    let cs := scientific (count - 1) steps mark
    if keep then cs
    else withoutZeros (cs.takeWhile (· ≠ mark)) ++ cs.dropWhile (· ≠ mark)

/-- Digits with a point, behind the whole part if there is none. -/
def withPoint (mark : Char) (cs : List Char) : List Char :=
  if cs.contains '.' then cs
  else cs.takeWhile (· ≠ mark) ++ '.' :: cs.dropWhile (· ≠ mark)

def float (c : Conversion) (d : Double) : List Char :=
  let places := c.precision.getD 6
  let mark := if c.letter.isUpper then 'E' else 'e'
  let cased (cs : List Char) : List Char := if c.letter.isUpper then cs.map Char.toUpper else cs
  match d with
  | .nan => c.paddedNumber false [] (cased "nan".toList)
  | .infinite n => c.paddedNumber n [] (cased "inf".toList)
  | .finite n s _ =>
    let digits := match c.letter.toLower with
      | 'f' => Double.fixedChars places s
      | 'e' => scientific places s mark
      | _ => general places s mark (c.has '#')
    c.paddedNumber n [] (if c.has '#' then withPoint mark digits else digits)

/-- The number a value stands for in a conversion; a text stands for none. -/
def doubleOf (v : Datum) : Except Failure Double :=
  match v with
  | .truth _ | .int _ | .float _ | .decimal _ =>
    match v.number? with
    | .ok (some d) => .ok d
    | .ok none => .ok .nan
    | .error e => .error e
  | _ => .error .wrongKind

/-- A value in a conversion; `position` is where the letter stands. -/
def apply (c : Conversion) (v : Datum) (position : Nat) : Except Failure (List Char) :=
  match c.letter with
  | 's' => .ok (c.text v.shown)
  | 'r' => .ok (c.text v.shownInside)
  | 'a' => .ok (c.text (String.ofList (asciiOnly v.shownInside.toList)))
  | 'd' | 'i' | 'u' => (wholeOf v).map (c.whole 10 [])
  | 'x' | 'X' => (strictWholeOf v).map (c.whole 16 ['0', c.letter])
  | 'o' => (strictWholeOf v).map (c.whole 8 ['0', 'o'])
  | 'c' =>
    match v with
    | .text s => if s.length = 1 then .ok (c.padded s.toList) else .error .wrongKind
    | _ => do
      let n ← strictWholeOf v
      if n < 0 ∨ 0x110000 ≤ n then .error .timeOutOfRange else .ok (c.padded [Char.ofNat n.toNat])
  | 'f' | 'F' | 'e' | 'E' | 'g' | 'G' => (doubleOf v).map c.float
  | other => .error (.unknownConversion other position)

end Conversion

namespace Message

/-- Reads a key in parentheses; parentheses within it come in pairs. -/
def key (depth : Nat) : List Char → Option (List Char × List Char)
  | [] => none
  | ')' :: rest =>
    match depth with
    | 0 => some ([], rest)
    | d + 1 => (key d rest).map fun (k, after) => (')' :: k, after)
  | '(' :: rest => (key (depth + 1) rest).map fun (k, after) => ('(' :: k, after)
  | c :: rest => (key depth rest).map fun (k, after) => (c :: k, after)

/-- The first number that is too large for a width or a precision. -/
def measureLimit : Nat := Nat.pow 2 31

/-- A whole number that an argument gives in the place of digits. -/
def starred (args : Arguments) : Except Failure (Int × Arguments) := do
  match ← args.next with
  | (.int n, args) => if measureLimit ≤ n.natAbs then .error .wholeTooLarge else return (n, args)
  | (.truth b, args) => return (if b then 1 else 0, args)
  | _ => .error .wrongKind

/-- Reads a number in digits, or a star for the next argument. -/
def measure (cs : List Char) (args : Arguments) : Except Failure (Int × List Char × Arguments) :=
  match cs with
  | '*' :: rest => do
    let (n, args) ← starred args
    return (n, rest, args)
  | _ => .ok (Numeral.valueOf (cs.takeWhile Char.isDigit), cs.dropWhile Char.isDigit, args)

/-- Reads a key, which only a mapping can have a value for. -/
def keyOf (cs : List Char) (args : Arguments) : Except Failure (Option String × List Char) :=
  match cs, args with
  | '(' :: _, .row _ => .error .wrongKind
  | '(' :: rest, .named .. =>
    match key 0 rest with
    | some (k, after) => .ok (some (String.ofList k), after)
    | none => .error .incompleteKey
  | _, _ => .ok (none, cs)

/-- Reads a conversion behind its percent sign. A width below zero pads behind. -/
def conversion (cs : List Char) (args : Arguments) :
    Except Failure (Conversion × List Char × Arguments) := do
  let (name, cs) ← keyOf cs args
  let isFlag (c : Char) : Bool := ['-', '+', ' ', '#', '0'].contains c
  let flags := cs.takeWhile isFlag
  let (width, cs, args) ← measure (cs.dropWhile isFlag) args
  let flags := if width < 0 then '-' :: flags else flags
  let (precision, cs, args) ← match cs with
    | '.' :: rest => do
      let (n, cs, args) ← measure rest args
      pure (some n.toNat, cs, args)
    | _ => pure (none, cs, args)
  let cs := match cs with
    | 'h' :: rest | 'l' :: rest | 'L' :: rest => rest
    | _ => cs
  match cs with
  | [] => .error .incompleteConversion
  | letter :: rest => return (⟨name, flags, width.natAbs, precision, letter⟩, rest, args)

/-- Puts arguments into a text of so many characters in all. A conversion takes at least one
character of it; the fuel counts them. -/
def fillFrom (size : Nat) : Nat → List Char → Arguments → Except Failure (List Char)
  | 0, _, args => args.finished.map fun _ => []
  | _ + 1, [], args => args.finished.map fun _ => []
  | fuel + 1, '%' :: '%' :: cs, args => (fillFrom size fuel cs args).map ('%' :: ·)
  | fuel + 1, '%' :: cs, args => do
    let (c, rest, args) ← conversion cs args
    let (value, args) ← match c.key with
      | some k => do pure (← args.valueOf k, args.afterKey)
      | none => args.next
    let front ← c.apply value (size - rest.length - 1)
    let more ← fillFrom size fuel rest args
    return front ++ more
  | fuel + 1, c :: cs, args => (fillFrom size fuel cs args).map (c :: ·)

/-- The text of a message; one without arguments stays as it is. -/
def text (message : String) (args : List Datum) : Except Failure String :=
  if args.isEmpty then .ok message
  else
    let cs := message.toList
    (fillFrom cs.length (cs.length + 1) cs (.ofList args)).map String.ofList

end Message

end FaultDesk
