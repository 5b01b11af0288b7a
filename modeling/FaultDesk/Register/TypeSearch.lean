import FaultDesk.Datum.JsonRead
import FaultDesk.Register.Numbering

/-!
Finding the type of a complaint: by number or name in the table of types, then among the settings,
which describe types in JSON.
-/

namespace FaultDesk

/-- A type of complaints, and how long one may stay open. -/
structure ComplaintType where
  id : Option Nat
  name : Datum
  slaHours : Double
  priority : Datum
deriving Repr

namespace ComplaintType

/-- The hours a complaint may stay open when nothing else is said. -/
def defaultHours : Double := Double.ofNat 48

def defaultPriority : String := "MEDIUM"

/-- A value, or another when it does not count as true. -/
def orElse (d other : Datum) : Datum := if d.holds then d else other

/-- Hours that a whole number stands for, by the binary64 number nearest to it. -/
def hoursOfWhole : Double → Except Failure Double
  | .infinite _ => .error .wholeTooLarge
  | x => .ok x

/-- Hours given as a value: what is no number means the default. -/
def hoursOf (d : Datum) : Except Failure Double :=
  match orElse d .null with
  | .truth _ => .ok (Double.ofNat 1)
  | .int n => hoursOfWhole (Double.ofInt n)
  | .float x => .ok x
  | .text s => .ok ((Double.ofText? s).getD defaultHours)
  | _ => .ok defaultHours

/-- The type that a setting describes. -/
def ofSetting (value : Option String) : Except Failure (Option ComplaintType) :=
  let text := Text.orElse (value.getD "") "\x7b\x7d"
  match Datum.ofJson? text with
  | some (.mapping es) =>
    let field (key : String) : Datum := (Datum.lookup key es).getD .null
    if (field "name").holds then do
      let hours ← hoursOf (field "slaHours")
      return some ⟨none, field "name", hours, orElse (field "priority") (.text defaultPriority)⟩
    else .ok none
  | _ => .ok none

def ofRow (t : TypeRow) : ComplaintType :=
  ⟨some t.id, .text t.name, match t.slaHours with
    | none => defaultHours
    | some n => if n = 0 then defaultHours else Double.ofInt n,
    .text (Text.orElse (t.priority.getD "") defaultPriority)⟩

/-- The beginning of the keys of settings that describe types. -/
def settingHead : String := "COMPLAINT_TYPE_"

/-- The first type with a name among settings, small and capital letters being the same. -/
def named (name : String) : List SettingRow → Except Failure (Option ComplaintType)
  | [] => .ok none
  | s :: rest => do
    match ← ofSetting s.value with
    | none => named name rest
    | some t =>
      match t.name with
      | .text n => if Text.lower n = Text.lower name then return some t else named name rest
      | _ => .error .lacksOperation

end ComplaintType

namespace Register

/-- The row of a type by number, when the name is made of digits, or else by name. -/
def typeRow (r : Register) (name : String) : Except Failure (Option TypeRow) :=
  if Text.allFigures name then do
    let n ← Whole.read name
    if ColumnType.holdsWhole n then return r.types.find? fun t => (t.id : Int) == n
    else .error .wholeTooLarge
  else .ok (r.types.find? (·.name == name))

/-- The type that the setting of a key describes. -/
def typeAt (r : Register) (key : String) : Except Failure (Option ComplaintType) :=
  match r.settings.find? fun s => s.key == key && s.isActive with
  | some s => ComplaintType.ofSetting s.value
  | none => .ok none

/-- The settings that describe types. -/
def typeSettings (r : Register) : List SettingRow :=
  r.settings.filter fun s => s.isActive && Text.startsLike ComplaintType.settingHead s.key

/-- The type of a name. -/
def typeOf (r : Register) (name : String) : Except Failure (Option ComplaintType) := do
  match ← r.typeRow name with
  | some t => return some (.ofRow t)
  | none =>
    match ← r.typeAt (Text.upper name) with
    | some t => return some t
    | none => ComplaintType.named name r.typeSettings

/-- The type that a value names. -/
def findType (r : Register) (named : Datum) : Except Failure (Option ComplaintType) := do
  let text ← if named.holds then named.written else .ok ""
  let name := Text.strip text
  if name.isEmpty then return none else r.typeOf name

end Register

end FaultDesk
