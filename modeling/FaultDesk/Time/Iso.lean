import FaultDesk.Time.Stamp

/-!
Reading ISO 8601 stamps: a calendar or week date with or without hyphens, any single character, a
clock time with or without colons, and an offset or `Z`. A fraction may have any number of digits;
those behind the sixth are dropped.
-/

namespace FaultDesk

namespace Iso

/-- Reads exactly that many digits. -/
def digits : Nat → List Char → Option (Nat × List Char)
  | 0, cs => some (0, cs)
  | n + 1, c :: cs =>
    if c.isDigit then
      (digits n cs).map fun (v, rest) => ((c.toNat - 48) * Nat.pow 10 n + v, rest)
    else none
  | _ + 1, [] => none

/-- Where the date ends, in characters, for each way to write it. -/
def dateLength (cs : List Char) : Option Nat :=
  if cs.length = 7 then some 7
  else
    let at? (n : Nat) : Option Char := cs[n]?
    let digitAt (n : Nat) : Bool := ((at? n).map Char.isDigit).getD false
    if at? 4 = some '-' then
      if at? 5 = some 'W' then
        if cs.length < 8 then none
        else if at? 8 = some '-' then
          if cs.length = 9 then none else if digitAt 10 then some 8 else some 10
        else some 8
      else some 10
    else if at? 4 = some 'W' then
      let stop := 7 + ((cs.drop 7).takeWhile Char.isDigit).length
      if stop < 9 then some stop else if stop % 2 = 0 then some 7 else some 8
    else some 8

/-- The day of an ISO week date, if the year has that week. -/
def weekDate (year week day : Nat) : Option Nat :=
  if year < 1 ∨ 9999 < year then none
  else
    let first := Calendar.daysBeforeYear year
    let weekday := first % 7
    let long := weekday = 3 ∨ (weekday = 2 ∧ Calendar.isLeap year)
    if 1 ≤ week ∧ (week ≤ 52 ∨ (week = 53 ∧ long)) ∧ 1 ≤ day ∧ day ≤ 7 then
      let monday : Int := if weekday ≤ 3 then (first : Int) - weekday else first + 7 - weekday
      let n := monday + ((week - 1) * 7 + day - 1 : Nat)
      if 0 ≤ n ∧ n < Calendar.dayLimit then some n.toNat else none
    else none

/-- Reads a date; the whole list must be used up. -/
def date (cs : List Char) : Option Nat := do
  let (year, rest) ← digits 4 cs
  let hyphens := rest.head? == some '-'
  let rest := if hyphens then rest.drop 1 else rest
  if rest.head? = some 'W' then
    let (week, rest) ← digits 2 (rest.drop 1)
    if rest.isEmpty then weekDate year week 1
    else if hyphens ∧ rest.head? ≠ some '-' then none
    else
      let (day, rest) ← digits 1 (if hyphens then rest.drop 1 else rest)
      if rest.isEmpty then weekDate year week day else none
  else
    let (month, rest) ← digits 2 rest
    if hyphens ∧ rest.head? ≠ some '-' then none
    else
      let (day, rest) ← digits 2 (if hyphens then rest.drop 1 else rest)
      if rest.isEmpty ∧ Calendar.isDate year month day then
        some (Date.number ⟨year, month, day⟩)
      else none

/-- The parts of a clock time read so far. -/
structure Clock where
  parts : List Nat
  micros : Nat
  /-- Whether something follows the time. -/
  more : Bool

/-- Reads a fraction: digits up to the end, the first six of which count. -/
def fraction (parts : List Nat) (cs : List Char) (follow : Bool) : Option Clock := do
  let count := min cs.length 6
  let (v, rest) ← digits count cs
  some ⟨parts, v * Nat.pow 10 (6 - count), follow || !(rest.dropWhile Char.isDigit).isEmpty⟩

/-- Reads up to three two-digit parts, then a fraction. `colons` is what the first divider was;
`follow` says whether the text goes on behind the list. -/
def clockFrom (follow : Bool) : Nat → Option Bool → List Nat → List Char → Option Clock
  | 0, _, parts, cs => fraction parts cs follow
  | left + 1, colons, parts, cs => do
    let (v, rest) ← digits 2 cs
    let parts := parts ++ [v]
    match rest with
    | [] => some ⟨parts, 0, follow⟩
    | c :: rest' =>
      let colons := colons.getD (c == ':')
      if rest'.isEmpty then some ⟨parts, 0, true⟩
      else if colons ∧ c = ':' then clockFrom follow left (some colons) parts rest'
      else if c = '.' ∨ c = ',' then fraction parts rest' follow
      else if !colons then clockFrom follow left (some colons) parts rest
      else none

def Clock.part (c : Clock) (n : Nat) : Nat := c.parts.getD n 0

def Clock.seconds (c : Clock) : Nat := c.part 0 * 3600 + c.part 1 * 60 + c.part 2

/-- The microseconds since midnight of a time that exists. -/
def Clock.span? (c : Clock) : Option Nat :=
  if c.part 0 ≤ 23 ∧ c.part 1 ≤ 59 ∧ c.part 2 ≤ 59 then some (c.seconds * 1000000 + c.micros)
  else none

/-- Reads an offset behind its sign. Less than a day in either direction; one of no whole second is
UTC. -/
def offset (negative : Bool) (cs : List Char) : Option Span := do
  let c ← clockFrom false 3 none [] cs
  if c.more then none
  else if c.seconds = 0 then some 0
  else
    let o : Int := c.seconds * 1000000 + c.micros
    if o < Span.day then some (if negative then -o else o) else none

/-- Reads a clock time and the offset behind it. -/
def time (cs : List Char) : Option (Nat × Option Span) := do
  let isMark (c : Char) : Bool := c == '+' || c == '-' || c == 'Z'
  let region := cs.takeWhile (!isMark ·)
  let zone := cs.dropWhile (!isMark ·)
  let c ← clockFrom (!zone.isEmpty) 3 none [] region
  match zone with
  | [] => if c.more then none else do some (← c.span?, none)
  | 'Z' :: rest => if rest.isEmpty then do some (← c.span?, some 0) else none
  | mark :: rest => do
    let o ← offset (mark == '-') rest
    some (← c.span?, some o)

end Iso

namespace Stamp

/-- Reads an ISO 8601 stamp. -/
def read? (s : String) : Option Stamp := do
  let cs := s.toList
  if cs.length < 7 then none
  else
    let n ← Iso.dateLength cs
    let day ← Iso.date (cs.take n)
    let start : Int := day * Span.day
    match cs.drop n with
    | [] => some ⟨start, none⟩
    | _ :: rest =>
      let (micros, offset) ← Iso.time rest
      some ⟨start + micros, offset⟩

end Stamp

end FaultDesk
