import FaultDesk.Time.Calendar

/-!
Points in time. A stamp is what a clock on a wall shows, with its distance from UTC when that is
known; an instant is a point on the UTC line. Both count microseconds from the start of year 1 and
end with year 9999.
-/

namespace FaultDesk

/-- A distance in time in microseconds. -/
abbrev Span := Int

/-- A point on the UTC line. -/
abbrev Instant := Int

namespace Span

def second : Span := 1000000
def minute : Span := 60000000
def hour : Span := 3600000000
def day : Span := 86400000000

/-- The greatest number of days a span can have. -/
def dayLimit : Int := 999999999

/-- A span that can be held. -/
def check? (s : Span) : Option Span :=
  if -(dayLimit * day) ≤ s ∧ s < (dayLimit + 1) * day then some s else none

end Span

namespace Instant

/-- The first instant behind year 9999. -/
def limit : Int := Calendar.dayLimit * 86400000000

/-- An instant within years 1 to 9999. -/
def check? (i : Int) : Option Instant := if 0 ≤ i ∧ i < limit then some i else none

/-- A later or, for a negative span, earlier instant, if there is one. -/
def shift? (i : Instant) (s : Span) : Option Instant := check? (i + s)

theorem check?_eq_some {i j : Int} (h : check? i = some j) : i = j ∧ 0 ≤ j ∧ j < limit := by
  unfold check? at h
  split at h
  next hb => cases h; exact ⟨rfl, hb⟩
  next => simp at h

end Instant

/-- What a wall clock shows, and its distance from UTC if known. -/
structure Stamp where
  wall : Int
  offset : Option Span
deriving DecidableEq, Repr

namespace Stamp

/-- The instant shown; a stamp without an offset is UTC. None when it lies outside the calendar. -/
def instant? (s : Stamp) : Option Instant :=
  match s.offset with
  | none => some s.wall
  | some o => Instant.check? (s.wall - o)

/-- The stamp of an instant in UTC. -/
def utc (i : Instant) : Stamp := ⟨i, some 0⟩

theorem instant?_utc {i : Instant} (h : 0 ≤ i ∧ i < Instant.limit) :
    (utc i).instant? = some i := by
  simp [instant?, utc, Instant.check?, h]

/-- The stamp of an instant in UTC that leaves out the offset. -/
def naive (i : Instant) : Stamp := ⟨i, none⟩

def date (s : Stamp) : Date := Date.ofNumber (s.wall / Span.day).toNat

/-- The microseconds since midnight. -/
def clock (s : Stamp) : Nat := (s.wall % Span.day).toNat

/-- The clock part: hours, minutes and seconds, and six digits of fraction unless it is zero and may
be left out. -/
def clockChars (micros : Nat) (always : Bool) : List Char :=
  let seconds := micros / 1000000
  let fraction := micros % 1000000
  Date.pad 2 (seconds / 3600) ++ ':' :: Date.pad 2 (seconds / 60 % 60) ++ ':' ::
    Date.pad 2 (seconds % 60) ++
    (if fraction = 0 ∧ !always then [] else '.' :: Date.pad 6 fraction)

/-- An offset as `+HH:MM`, with seconds and their fraction only when they are not zero. -/
def offsetChars (o : Span) : List Char :=
  let m := o.natAbs
  let seconds := m / 1000000
  let fraction := m % 1000000
  (if o < 0 then '-' else '+') :: (Date.pad 2 (seconds / 3600) ++ ':' ::
    Date.pad 2 (seconds / 60 % 60) ++
    (if seconds % 60 = 0 ∧ fraction = 0 then [] else ':' :: Date.pad 2 (seconds % 60)) ++
    (if fraction = 0 then [] else '.' :: Date.pad 6 fraction))

/-- Date, separator, clock and offset. -/
def textWith (separator : Char) (s : Stamp) : String :=
  String.ofList (s.date.textChars ++ separator :: clockChars s.clock false ++
    match s.offset with
    | none => []
    | some o => offsetChars o)

/-- The stamp as `YYYY-MM-DDTHH:MM:SS[.ffffff][+HH:MM]`. -/
def text (s : Stamp) : String := textWith 'T' s

end Stamp

end FaultDesk
