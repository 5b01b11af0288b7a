import FaultDesk.Text.Quoted
import FaultDesk.Text.Utf8

/-!
The causes for which a computation gives no value, and the one wording of each.
-/

namespace FaultDesk

/-- Why a value cannot be computed. -/
inductive Failure where
  /-- A whole number lies beyond the binary64 range. -/
  | wholeTooLarge
  /-- A signaling NaN has no binary64 form. -/
  | signalingNan
  /-- NaN has no whole part. -/
  | nanWhole
  /-- An infinite number has no whole part. -/
  | infiniteWhole
  /-- A span has more days than can be held. -/
  | spanTooLong (days : Int)
  /-- A time lies outside years 1 to 9999. -/
  | timeOutOfRange
  /-- A value that cannot be a key was looked up. -/
  | notAKey
  /-- A whole number has more digits than may be written. -/
  | tooManyDigits
  /-- The timer records cannot be reached. -/
  | storeDown
  /-- The table of the records is gone, or the database refuses a statement. -/
  | databaseRefused
  /-- The database cannot be reached. -/
  | databaseUnreachable
  /-- A key has no record. -/
  | missingKey
  /-- A row or table has no such column. -/
  | missingColumn (name : String)
  /-- A table of readings is not there. -/
  | noReadings (client table : String)
  /-- The database of readings refuses a query. -/
  | readingsRefused
  /-- A part of the source of readings is down. -/
  | sourceDown (part : String)
  /-- A value is of a kind the operation does not take. -/
  | wrongKind
  /-- A value lacks the operation. -/
  | lacksOperation
  /-- A value that should be a time is none. -/
  | noTime (kind : String)
  /-- A text is no whole number in a base. -/
  | notWhole (base : Nat) (quoted : String)
  /-- A text is no number. -/
  | notNumber (quoted : String)
  /-- A number in writing has more digits than may be read. -/
  | tooManyFigures (count : Nat)
  /-- A number has nothing written. -/
  | emptyNumber
  /-- A word is none of the known ones. -/
  | unknownWord
  /-- A code point lies beyond the last one. -/
  | noCodePoint
  /-- A code point lies far beyond the last one. -/
  | codeTooLarge
  /-- A part of a time lies outside its range. -/
  | partOutOfRange (part range : String)
  /-- A month has no such day. -/
  | noSuchDay
  /-- A year outside 1 to 9999. -/
  | noSuchYear (year : Nat)
  /-- A distance from UTC of a day or more. -/
  | offsetTooLong (shown : String)
  /-- Octets are no UTF-8 text. -/
  | notUtf8 (fault : Utf8Fault)
  /-- Octets within a value are no UTF-8 text. -/
  | hiddenOctets (octet position : Nat)
  /-- A message has a conversion that does not exist. -/
  | unknownConversion (mark : Char) (position : Nat)
  /-- A message ends within a conversion. -/
  | incompleteConversion
  /-- A message ends within the key of a conversion. -/
  | incompleteKey
  /-- A list ends within a quotation. -/
  | unclosedQuotation
  /-- A list ends where a character is to be escaped. -/
  | nothingEscaped
  /-- A text is neither true nor false. -/
  | notTruth (shown : String)
  /-- A schedule cannot be followed. -/
  | badSchedule (text : String)
  /-- A path has a character that no name can have. -/
  | nulInPath
  /-- A number that is written to a reader of JSON is not finite. -/
  | notFiniteJson
  /-- A setting that has no standard is not given. -/
  | missingSetting (name : String)
  /-- An operation stopped with a text of its own. -/
  | stopped (text : String)
deriving DecidableEq, Repr

/-- The kinds of failure. -/
inductive FailureKind where
  /-- A number or time is out of range. -/
  | range
  /-- A value is of the wrong kind. -/
  | kind
  /-- A value has none of the needed operations. -/
  | lacking
  /-- A key is missing. -/
  | key
  /-- A text is too short. -/
  | index
  /-- A value does not say what it should. -/
  | value
  /-- Octets are no text. -/
  | encoding
  /-- A database refuses a statement. -/
  | database
  /-- The source of readings cannot be read. -/
  | source
  /-- Something else stops the operation. -/
  | stop
deriving DecidableEq, Repr

namespace Failure

def kind : Failure → FailureKind
  | wholeTooLarge | infiniteWhole | spanTooLong _ | timeOutOfRange | codeTooLarge => .range
  | notAKey | wrongKind => .kind
  | lacksOperation | noTime _ => .lacking
  | missingKey | unknownWord | missingColumn _ => .key
  | emptyNumber => .index
  | notUtf8 _ | hiddenOctets .. => .encoding
  | databaseRefused => .database
  | noReadings .. | readingsRefused | sourceDown _ => .source
  | storeDown | databaseUnreachable | missingSetting _ | stopped _ => .stop
  | _ => .value

/-- Whether a value was not as it should be. -/
def isValue (f : Failure) : Bool := f.kind == .value || f.kind == .encoding

/-- Whether a database refused a statement. -/
def isDatabase (f : Failure) : Bool := f.kind == .database

/-- Two hexadecimal digits. -/
def hexPair (n : Nat) : List Char := [Nat.digitChar (n / 16), Nat.digitChar (n % 16)]

def message : Failure → String
  | wholeTooLarge => "int too large to convert to float"
  | signalingNan => "cannot convert signaling NaN to float"
  | nanWhole => "cannot convert float NaN to integer"
  | infiniteWhole => "cannot convert float infinity to integer"
  | spanTooLong days =>
    if 2147483648 ≤ days.natAbs then "Python int too large to convert to C int"
    else s!"days={days}; must have magnitude <= 999999999"
  | timeOutOfRange => "date value out of range"
  | notAKey => "unhashable type"
  | tooManyDigits => "Exceeds the limit (4300 digits) for integer string conversion; use sys.set_int_max_str_digits() to increase the limit"
  | storeDown => "state db unavailable"
  | databaseRefused => "database error"
  | databaseUnreachable => "database unreachable"
  | missingKey => "no record"
  | missingColumn name => Text.quoted name
  | noReadings client table => s!"Could not reflect source tables for client {client}: {table}"
  | readingsRefused => "Source query failed"
  | sourceDown part => part ++ " down"
  | wrongKind => "unsupported kind of value"
  | lacksOperation => "value lacks the operation"
  | noTime kind => s!"'{kind}' object has no attribute 'tzinfo'"
  | notWhole base q => s!"invalid literal for int() with base {base}: {q}"
  | notNumber q => s!"could not convert string to float: {q}"
  | tooManyFigures n => s!"Exceeds the limit (4300 digits) for integer string conversion: value has {n} digits; use sys.set_int_max_str_digits() to increase the limit"
  | emptyNumber => "string index out of range"
  | unknownWord => "unknown word"
  | noCodePoint => "chr() arg not in range(0x110000)"
  | codeTooLarge => "number too large"
  | partOutOfRange p r => s!"{p} must be in {r}"
  | noSuchDay => "day is out of range for month"
  | noSuchYear y => s!"year {y} is out of range"
  | offsetTooLong s => "offset must be a timedelta strictly between -timedelta(hours=24) and timedelta(hours=24), not " ++ s ++ "."
  | notUtf8 f =>
    "'utf-8' codec can't decode byte" ++
      (match f.octets with
        | [b] => " 0x" ++ String.ofList (hexPair b.toNat) ++ s!" in position {f.position}"
        | bs => s!"s in position {f.position}-{f.position + bs.length - 1}") ++ ": " ++ f.reason.message
  | hiddenOctets b n => "'utf-8' codec can't decode byte 0x" ++ String.ofList (hexPair b) ++
      s!" in position {n}: invalid utf-8"
  | unknownConversion c n =>
    let shown := if 32 ≤ c.toNat ∧ c.toNat < 127 then c else '?'
    let code := String.ofList (Nat.toDigits 16 c.toNat)
    s!"unsupported format character '{shown}' (0x{code}) at index {n}"
  | incompleteConversion => "incomplete format"
  | incompleteKey => "incomplete format key"
  | unclosedQuotation => "No closing quotation"
  | nothingEscaped => "No escaped character"
  | notTruth s => "Invalid truth value: " ++ s
  | badSchedule text => text
  | nulInPath => "embedded null byte"
  | notFiniteJson => "Out of range float values are not JSON compliant"
  | missingSetting name => s!"Environment variable is required in .env for production: {name} not found. Declare it as envvar or define a default value."
  | stopped t => t

end Failure

end FaultDesk
