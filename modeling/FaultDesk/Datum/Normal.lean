import FaultDesk.Datum.Shown

/-!
The text that values are compared by in keys: whole numbers lose their fraction, so that `0`, `0.0`
and `"0"` agree.
-/

namespace FaultDesk

namespace Datum

/-- The whole number a binary64 number is, in decimal. -/
def wholeText? (d : Double) : Option String :=
  if d.isWhole then d.whole?.map toString else none

/-- The text that a text has in keys. -/
def normalOfText (s : String) : String :=
  let t := Text.strip s
  ((Double.ofText? t).bind wholeText?).getD t

/-- The text that a whole number has in keys, by the binary64 number nearest to it. -/
def normalOfWhole (n : Int) : Double → Except Failure String
  | .infinite _ => .error .wholeTooLarge
  | d => .ok ((wholeText? d).getD (toString n))

/-- The text a value has in keys. -/
def normalText : Datum → Except Failure String
  | .truth b => .ok (if b then "1" else "0")
  | .int n => normalOfWhole n (Double.ofInt n)
  | .float d => .ok ((wholeText? d).getD d.text)
  | .decimal d =>
    match d.toDouble? with
    | none => .error .signalingNan
    | some x => .ok ((wholeText? x).getD d.text)
  | .text s => .ok (normalOfText s)
  | d => d.written

end Datum

end FaultDesk
