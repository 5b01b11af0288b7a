import FaultDesk.Failure
import FaultDesk.Number.Double
import FaultDesk.Time.Stamp

/-!
Spans given as a binary64 number of seconds, minutes or hours.
-/

namespace FaultDesk

namespace Span

/-- A span that has to fit, with its days reported when it does not. -/
def checked (s : Int) : Except Failure Span :=
  match check? s with
  | some s => .ok s
  | none => .error (.spanTooLong (s / day))

/-- A number of units of `size` microseconds. The whole part is exact; the fraction is multiplied in
binary64, and what is left below a microsecond is rounded with the rest, a half to the even one. -/
def ofDouble (d : Double) (size : Nat) : Except Failure Span :=
  match d.whole?, d.fraction? with
  | some n, some f =>
    let part := f.scale size
    match part.signed? with
    | some steps => checked (roundedQuotientInt (n * size * Double.unit + steps) Double.unit)
    | none => .error .infiniteWhole
  | _, _ => .error (if d.isNan then .nanWhole else .infiniteWhole)

def seconds (d : Double) : Except Failure Span := ofDouble d 1000000

def minutes (d : Double) : Except Failure Span := ofDouble d 60000000

def hours (d : Double) : Except Failure Span := ofDouble d 3600000000

/-- An instant moved by a span; it fails outside the calendar. -/
def from? (i : Instant) (s : Span) : Except Failure Instant :=
  match Instant.shift? i s with
  | some j => .ok j
  | none => .error .timeOutOfRange

end Span

end FaultDesk
