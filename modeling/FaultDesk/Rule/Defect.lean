/-!
What can be wrong with a piece of configuration, and where. Checking goes on past a defect, so that
all of them are found, in the order of the fields.
-/

namespace FaultDesk

/-- A step on the way to a part of a configuration. -/
inductive Place where
  | field (name : String)
  | item (index : Int)
deriving DecidableEq, Repr

namespace Defect

inductive Cause where
  | missing
  | notText
  | brokenText
  | notWhole
  | unreadableWhole
  | brokenWhole
  | notNumber
  | unreadableNumber
  | notFinite
  | notTruth
  | unreadableTruth
  | notList
  | notMapping
  | notPart (part : String)
  | notFields
  | noKind
  | unknownKind (kind : String)
  | notOneOf (words : List String)
  | invalid (text : String)
  | notAbove (bound : String)
  | below (bound : String)
  | above (bound : String)
  | brokenBody (text : String)
  | oversizedWhole
deriving DecidableEq, Repr

/-- Words in quotes, joined with commas and an `or` before the last. -/
def alternatives : List String → String
  | [] => ""
  | [w] => "'" ++ w ++ "'"
  | [v, w] => "'" ++ v ++ "' or '" ++ w ++ "'"
  | w :: ws => "'" ++ w ++ "', " ++ alternatives ws

namespace Cause

/-- The short name of the cause. -/
def code : Cause → String
  | missing => "missing"
  | notText => "string_type"
  | brokenText => "string_unicode"
  | notWhole => "int_type"
  | unreadableWhole => "int_parsing"
  | brokenWhole => "int_from_float"
  | notNumber => "float_type"
  | unreadableNumber => "float_parsing"
  | notFinite => "finite_number"
  | notTruth => "bool_type"
  | unreadableTruth => "bool_parsing"
  | notList => "list_type"
  | notMapping => "dict_type"
  | notPart _ => "model_type"
  | notFields => "model_attributes_type"
  | noKind => "union_tag_not_found"
  | unknownKind _ => "union_tag_invalid"
  | notOneOf _ => "literal_error"
  | invalid _ => "value_error"
  | notAbove _ => "greater_than"
  | below _ => "greater_than_equal"
  | above _ => "less_than_equal"
  | brokenBody _ => "json_invalid"
  | oversizedWhole => "int_parsing_size"

def message : Cause → String
  | missing => "Field required"
  | notText => "Input should be a valid string"
  | brokenText => "Input should be a valid string, unable to parse raw data as a unicode string"
  | notWhole => "Input should be a valid integer"
  | unreadableWhole => "Input should be a valid integer, unable to parse string as an integer"
  | brokenWhole => "Input should be a valid integer, got a number with a fractional part"
  | notNumber => "Input should be a valid number"
  | unreadableNumber => "Input should be a valid number, unable to parse string as a number"
  | notFinite => "Input should be a finite number"
  | notTruth => "Input should be a valid boolean"
  | unreadableTruth => "Input should be a valid boolean, unable to interpret input"
  | notList => "Input should be a valid list"
  | notMapping => "Input should be a valid dictionary"
  | notPart part => "Input should be a valid dictionary or instance of " ++ part
  | notFields => "Input should be a valid dictionary or object to extract fields from"
  | noKind => "Unable to extract tag using discriminator 'kind'"
  | unknownKind kind => "Input tag '" ++ kind ++
      "' found using 'kind' does not match any of the expected tags: 'simple', 'rate'"
  | notOneOf words => "Input should be " ++ alternatives words
  | invalid text => "Value error, " ++ text
  | notAbove bound => "Input should be greater than " ++ bound
  | below bound => "Input should be greater than or equal to " ++ bound
  | above bound => "Input should be less than or equal to " ++ bound
  | brokenBody _ => "JSON decode error"
  | oversizedWhole => "Unable to parse input string as an integer, exceeded maximum size"

end Cause

end Defect

/-- One thing that is wrong, and the path to it. -/
structure Defect where
  path : List Place
  cause : Defect.Cause
deriving DecidableEq, Repr

/-- A checked value, or all that is wrong with it. -/
inductive Checked (α : Type) where
  | valid (value : α)
  | invalid (defects : List Defect)
deriving Repr

namespace Checked

variable {α β : Type}

def map (f : α → β) : Checked α → Checked β
  | valid a => valid (f a)
  | invalid ds => invalid ds

/-- Applies a checked function to a checked value; the defects of both are kept. -/
def apply (f : Checked (α → β)) (x : Checked α) : Checked β :=
  match f, x with
  | valid f, valid a => valid (f a)
  | valid _, invalid ds => invalid ds
  | invalid ds, valid _ => invalid ds
  | invalid ds, invalid es => invalid (ds ++ es)

instance : Applicative Checked where
  pure := valid
  map := map
  seq f x := apply f (x ())

/-- Goes on with a valid value. -/
def andThen (x : Checked α) (f : α → Checked β) : Checked β :=
  match x with
  | valid a => f a
  | invalid ds => invalid ds

/-- A single defect at the value itself. -/
def fail (cause : Defect.Cause) : Checked α := invalid [⟨[], cause⟩]

/-- The value lies one step deeper. -/
def under (place : Place) : Checked α → Checked α
  | valid a => valid a
  | invalid ds => invalid (ds.map fun d => { d with path := place :: d.path })

def value? : Checked α → Option α
  | valid a => some a
  | invalid _ => none

theorem map_valid (f : α → β) (a : α) : map f (valid a) = valid (f a) := rfl

theorem under_valid (p : Place) (a : α) : under p (valid a) = valid a := rfl

theorem apply_valid (f : α → β) (a : α) : apply (valid f) (valid a) = valid (f a) := rfl

end Checked

end FaultDesk
