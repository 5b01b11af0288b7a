import FaultDesk.Log.Message

/-!
Lines of the log: time, name, level and message, in colour where a terminal shows them.
-/

namespace FaultDesk

namespace Log

/-- The name above all names in the log. -/
def rootName : String := "alarmsync"

/-- The name under which a part of the program writes. -/
def nameOf (part : String) : String :=
  if rootName.toList.isPrefixOf part.toList then part else rootName ++ "." ++ part

/-- The number of the colour of a level. -/
def colours : List (String × Nat) :=
  [("DEBUG", 36), ("INFO", 32), ("WARNING", 33), ("ERROR", 31), ("CRITICAL", 35)]

/-- What switches a terminal to a colour. -/
def escape (colour : Nat) : String := s!"\x1b[{colour}m"

/-- A line in the colour of its level; what follows is in no colour. -/
def coloured (level line : String) : String :=
  ((colours.lookup level).map escape).getD "" ++ line ++ escape 0

/-- A stamp to the second, as UTC shows it. -/
def timeText (s : Stamp) : Except Failure String :=
  match s.instant? with
  | none => .error .timeOutOfRange
  | some i =>
    let w := Stamp.naive (i - i % Span.second)
    .ok (toString w.date.year ++ String.ofList (w.date.textChars.drop 4 ++
      ' ' :: Stamp.clockChars w.clock false))

/-- The line of a message. -/
def line (time : Stamp) (name level message : String) (args : List Datum) (inColour : Bool) :
    Except Failure String := do
  let text ← Message.text message args
  let t ← timeText time
  let plain := " | ".intercalate [t, name, level, text]
  return if inColour then coloured level plain else plain

end Log

end FaultDesk
