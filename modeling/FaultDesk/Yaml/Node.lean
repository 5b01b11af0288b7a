import FaultDesk.Yaml.Tag
import FaultDesk.Yaml.Token

/-!
The nodes of a YAML document: scalars, sequences and mappings with their tags. An alias stands for
the node of its anchor.
-/

namespace FaultDesk

namespace Yaml

inductive Node where
  | scalar (tag : Tag) (text : String)
  | sequence (tag : Tag) (items : List Node)
  | mapping (tag : Tag) (entries : List (Node × Node))
deriving Repr

instance : Inhabited Node := ⟨.scalar .null ""⟩

namespace Node

/-- A scalar of which nothing is written. -/
def empty : Node := .scalar .null ""

end Node

/-- What is left to read, and the nodes that have names. -/
structure Reading where
  tokens : List Token
  anchors : List (String × Node)
  /-- What the handles of tags stand for. -/
  handles : List (String × String)

abbrev Reader := StateT Reading (Except Malformed)

namespace Reader

def fail {α : Type} : Reader α := throw .document

def peek : Reader (Option Token) := return (← get).tokens.head?

def drop : Reader Unit := modify fun r => { r with tokens := r.tokens.drop 1 }

/-- Whether the next token is one of these. -/
def nextIn (ts : List Token) : Reader Bool := do
  match ← peek with
  | some t => return ts.contains t
  | none => return false

/-- Takes the next token if it is this one. -/
def takes (t : Token) : Reader Bool := do
  if (← peek) == some t then
    drop
    return true
  else return false

def expect (t : Token) : Reader Unit := do
  unless ← takes t do fail

/-- The anchor and the tag in front of a node, in either order. -/
def properties : Reader (Option String × Option (Option String × String)) := do
  match ← peek with
  | some (.anchor a) =>
    drop
    match ← peek with
    | some (.tag h s) =>
      drop
      return (some a, some (h, s))
    | _ => return (some a, none)
  | some (.tag h s) =>
    drop
    match ← peek with
    | some (.anchor a) =>
      drop
      return (some a, some (h, s))
    | _ => return (none, some (h, s))
  | _ => return (none, none)

/-- The full name of a tag; none when the kind is to be told from the node itself. -/
def tagName : Option (Option String × String) → Reader (Option String)
  | none => return none
  | some (none, s) => return if s == "!" then none else some s
  | some (some h, s) => do
    match (← get).handles.lookup h with
    | some p => return if p ++ s == "!" then none else some (p ++ s)
    | none => fail

/-- Names a node. -/
def name (anchor : Option String) (n : Node) : Reader Unit :=
  match anchor with
  | none => return ()
  | some a => modify fun r => { r with anchors := (a, n) :: r.anchors }

/-- A name may be given once only. -/
def checkName (anchor : Option String) : Reader Unit := do
  match anchor with
  | none => return ()
  | some a => if ((← get).anchors.lookup a).isSome then fail

def tagOr (t : Option String) (default : Tag) : Tag := (t.map Tag.ofName).getD default

/-- What a block collection's entry is followed by when it is empty. -/
def afterEntry : List Token := [.key, .value, .blockEnd]

mutual

/-- A node. `block` says whether a block collection may stand here, `flat` whether a sequence may
stand at the column of the mapping around it. -/
def node : Nat → Bool → Bool → Reader Node
  | 0, _, _ => fail
  | fuel + 1, block, flat => do
    match ← peek with
    | some (.alias a) =>
      drop
      match (← get).anchors.lookup a with
      | some n => return n
      | none => fail
    | _ =>
      let (anchor, tag) ← properties
      let t ← tagName tag
      checkName anchor
      match ← peek with
      | some (.scalar plain text) =>
        drop
        let kind :=
          match t with
          | some t => Tag.ofName t
          | none => if plain || tag.isSome then Spelling.tag text else .text
        let n := Node.scalar kind text
        name anchor n
        return n
      | some .flowSequenceStart =>
        drop
        name anchor .empty
        let items ← flowItems fuel true
        let n := Node.sequence (tagOr t .sequence) items
        name anchor n
        return n
      | some .flowMappingStart =>
        drop
        name anchor .empty
        let entries ← flowEntries fuel true
        let n := Node.mapping (tagOr t .mapping) entries
        name anchor n
        return n
      | next =>
        if flat ∧ next = some .blockEntry then
          name anchor .empty
          let items ← flatItems fuel
          let n := Node.sequence (tagOr t .sequence) items
          name anchor n
          return n
        else if block ∧ next = some .sequenceStart then
          drop
          name anchor .empty
          let items ← blockItems fuel
          let n := Node.sequence (tagOr t .sequence) items
          name anchor n
          return n
        else if block ∧ next = some .mappingStart then
          drop
          name anchor .empty
          let entries ← blockEntries fuel
          let n := Node.mapping (tagOr t .mapping) entries
          name anchor n
          return n
        else if anchor.isSome ∨ tag.isSome then
          let n := Node.scalar (tagOr t .null) ""
          name anchor n
          return n
        else fail

/-- A node, or an empty one in front of one of these tokens. -/
def nodeUnless : Nat → List Token → Bool → Bool → Reader Node
  | 0, _, _, _ => fail
  | fuel + 1, ends, block, flat => do
    if ← nextIn ends then return .empty else node fuel block flat

def blockItems : Nat → Reader (List Node)
  | 0 => fail
  | fuel + 1 => do
    if ← takes .blockEntry then
      let n ← nodeUnless fuel [.blockEntry, .blockEnd] true false
      return n :: (← blockItems fuel)
    else
      expect .blockEnd
      return []

def flatItems : Nat → Reader (List Node)
  | 0 => fail
  | fuel + 1 => do
    if ← takes .blockEntry then
      let n ← nodeUnless fuel (.blockEntry :: afterEntry) true false
      return n :: (← flatItems fuel)
    else return []

def blockEntries : Nat → Reader (List (Node × Node))
  | 0 => fail
  | fuel + 1 => do
    if ← takes .key then
      let k ← nodeUnless fuel afterEntry true true
      let v ← if ← takes .value then nodeUnless fuel afterEntry true true else pure .empty
      return (k, v) :: (← blockEntries fuel)
    else
      expect .blockEnd
      return []

/-- The items of a flow sequence; one with a key is a mapping of one entry. -/
def flowItems : Nat → Bool → Reader (List Node)
  | 0, _ => fail
  | fuel + 1, first => do
    if ← takes .flowSequenceEnd then return []
    else
      unless first do expect .flowEntry
      if ← takes .key then
        let k ← nodeUnless fuel [.value, .flowEntry, .flowSequenceEnd] false false
        let v ← if ← takes .value then
            nodeUnless fuel [.flowEntry, .flowSequenceEnd] false false
          else pure .empty
        return .mapping .mapping [(k, v)] :: (← flowItems fuel false)
      else if ← takes .flowSequenceEnd then return []
      else
        let n ← node fuel false false
        return n :: (← flowItems fuel false)

def flowEntries : Nat → Bool → Reader (List (Node × Node))
  | 0, _ => fail
  | fuel + 1, first => do
    if ← takes .flowMappingEnd then return []
    else
      unless first do expect .flowEntry
      if ← takes .key then
        let k ← nodeUnless fuel [.value, .flowEntry, .flowMappingEnd] false false
        let v ← if ← takes .value then
            nodeUnless fuel [.flowEntry, .flowMappingEnd] false false
          else pure .empty
        return (k, v) :: (← flowEntries fuel false)
      else if ← takes .flowMappingEnd then return []
      else
        let k ← node fuel false false
        return (k, .empty) :: (← flowEntries fuel false)

end

/-- The directives in front of a document. -/
def directives : Nat → Bool → List (String × String) → Reader (List (String × String))
  | 0, _, _ => fail
  | fuel + 1, versioned, handles => do
    match ← peek with
    | some (.version major) =>
      drop
      if versioned ∨ major ≠ 1 then fail else directives fuel true handles
    | some (.handle h p) =>
      drop
      if (handles.lookup h).isSome then fail else directives fuel versioned ((h, p) :: handles)
    | some .directive =>
      drop
      directives fuel versioned handles
    | _ => return handles

/-- The handles that need no directive. -/
def standardHandles : List (String × String) := [("!", "!"), ("!!", Tag.common)]

def dropDocumentEnds : Nat → Reader Unit
  | 0 => return ()
  | fuel + 1 => do
    if ← takes .documentEnd then dropDocumentEnds fuel

/-- What may stand where an empty document ends. -/
def startsAnother : Option Token → Bool
  | none => true
  | some (.version _) => true
  | some (.handle ..) => true
  | some .directive => true
  | some .documentStart => true
  | some .documentEnd => true
  | _ => false

/-- The one document of a text; none when there is nothing at all. -/
def document (fuel : Nat) : Reader (Option Node) := do
  let start ← peek
  let n? ←
    if start.isNone then pure none
    else if startsAnother start ∧ start ≠ some .documentEnd then do
      let own ← directives fuel false []
      modify fun r => { r with handles := own ++ standardHandles }
      expect .documentStart
      if startsAnother (← peek) then pure (some Node.empty)
      else pure (some (← node fuel true false))
    else do
      pure (some (← node fuel true false))
  dropDocumentEnds fuel
  if (← peek).isSome then fail
  return n?

end Reader

/-- The root of the one document in a text. -/
def root? (s : String) : Except Malformed (Option Node) := do
  let ts ← tokens s
  let (n, _) ← (Reader.document (3 * ts.length + 3)).run ⟨ts, [], Reader.standardHandles⟩
  return n

end Yaml

end FaultDesk
