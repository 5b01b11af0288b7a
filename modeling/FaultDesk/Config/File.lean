import FaultDesk.Config.Intake
import FaultDesk.Config.Layout
import FaultDesk.Yaml.Printer

/-!
The rules file: a YAML document that holds a configuration. A file is null when it does not exist.
-/

namespace FaultDesk

/-- Why a rules file gives no configuration. -/
inductive FileFault where
  | missing
  /-- The text is no document. -/
  | malformed
  /-- The octets or a scalar of the document cannot be read. -/
  | failed (cause : Failure)
  | refused (fault : ConfigFault)
deriving DecidableEq, Repr

namespace ConfigFault

/-- The first line of what is said about a configuration that cannot be taken. -/
def message : ConfigFault → String
  | notMapping => "Rules configuration must be a mapping"
  | defects [_] => "Invalid rules configuration: 1 validation error for SyncRulesConfig"
  | defects ds => s!"Invalid rules configuration: {ds.length} validation errors for SyncRulesConfig"

end ConfigFault

namespace FileFault

/-- What is said about a file of rules at a path. -/
def message (path : String) : FileFault → String
  | missing => "Rules file not found: " ++ path
  | malformed => "Could not read rules file"
  | failed f => f.message
  | refused f => f.message

end FileFault

/-- Every line end as one character. -/
def unixLines : List Char → List Char
  | '\r' :: '\n' :: rest => '\n' :: unixLines rest
  | '\r' :: rest => '\n' :: unixLines rest
  | c :: rest => c :: unixLines rest
  | [] => []

namespace Config

/-- The configuration that a document holds; nothing, zero and the like stand for no entries. -/
def ofDocument (d : Option Datum) : Except FileFault Config :=
  let raw := d.getD .null
  match check (if raw.holds then raw else .mapping []) with
  | .ok c => .ok c
  | .error f => .error (.refused f)

/-- The configuration in the text of a file. -/
def ofText (s : String) : Except FileFault Config :=
  match Yaml.read (String.ofList (unixLines s.toList)) with
  | .error .malformed => .error .malformed
  | .error (.failed f) => .error (.failed f)
  | .ok d => ofDocument d

/-- The configuration in a file. -/
def load (file : Option (List UInt8)) : Except FileFault Config :=
  match file with
  | none => .error .missing
  | some bs =>
    match Utf8.decodePieces bs with
    | .error f => .error (.failed (.notUtf8 f))
    | .ok s => ofText s

/-- The text of the file that holds a configuration. -/
def print (c : Config) : Except Failure String := do Yaml.print (← c.layout false)

/-- Checks a configuration and writes it in place of a file. What comes out is the configuration and
the text of the file, if there is one then. The file is emptied before its text is made. -/
def save (raw : Datum) (file : Option String) : Except FileFault Config × Option String :=
  match check raw with
  | .error f => (.error (.refused f), file)
  | .ok c =>
    match c.print with
    | .error f => (.error (.failed f), some "")
    | .ok s => (.ok c, some s)

end Config

end FaultDesk
