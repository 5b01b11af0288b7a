import FaultDesk.Config.File
import FaultDesk.Number.Double
import FaultDesk.Web.Message

/-!
The folder of log files: a list of the files, the latest first, and the last lines of one of them.
Only files in the folder itself can be read.
-/

namespace FaultDesk

structure LogFile where
  name : String
  octets : List UInt8
  /-- When the file was changed, if that is told; a file of which it is not is newer than one of which
  it is. -/
  modified : Option Double
deriving Repr

/-- The files in the order in which they were written. -/
structure LogFolder where
  /-- The name of the folder. -/
  name : String
  files : List LogFile
deriving Repr

namespace LogFolder

/-- Puts a file in, in the place of one of its name. -/
def write (f : LogFolder) (file : LogFile) : LogFolder :=
  { f with files := f.files.filter (·.name != file.name) ++ [file] }

def file? (f : LogFolder) (name : String) : Option LogFile := f.files.find? (·.name == name)

/-- Whether a file was not changed before another. -/
def notBefore (a b : LogFile) : Bool :=
  match a.modified, b.modified with
  | some s, some t => t.le s
  | some _, none => false
  | none, _ => true

/-- Whether a text has another in it. -/
def hasPart (part : List Char) : List Char → Bool
  | [] => part.isEmpty
  | c :: cs => part.isPrefixOf (c :: cs) || hasPart part cs

/-- The log files, the latest first. -/
def listed (f : LogFolder) : List LogFile :=
  (f.files.filter fun x => hasPart ".log".toList x.name.toList).reverse.mergeSort notBefore

/-- Where a path leads from a folder: the names on the way below the folders above, or nowhere that is
known. -/
def resolve : List String → List String → Option (List String)
  | done, [] => some done.reverse
  | done, p :: ps =>
    if p.isEmpty || p == "." then resolve done ps
    else if p == ".." then
      match done with
      | [] => none
      | _ :: done => resolve done ps
    else resolve (p :: done) ps

/-- The name of the file that a path means, if the file lies in the folder itself. -/
def nameOf? (f : LogFolder) (path : String) : Option String :=
  if "/".toList.isPrefixOf path.toList then none
  else
    match resolve [f.name] (path.splitOn "/") with
    | some [folder, name] => if folder == f.name then some name else none
    | _ => none

/-- Text cut at its line ends; nothing stands behind the last one. -/
def linesOf (line : List Char) : List Char → List String
  | [] => if line.isEmpty then [] else [String.ofList line.reverse]
  | '\n' :: rest => String.ofList line.reverse :: linesOf [] rest
  | c :: rest => linesOf (c :: line) rest

/-- The last lines of a file. -/
def tail (x : LogFile) (count : Nat) : List String :=
  let lines := linesOf [] (unixLines (Utf8.decodeMarked x.octets))
  lines.drop (lines.length - count)

/-- The most lines that can be asked for. -/
def lineLimit : Int := 5000

/-- The parameters of a request for lines: the path and the number of lines, 100 unless given. -/
def tailParams (r : Request) : Checked (String × Int) :=
  let path : Checked String := match r.param? "file" with
    | some s => .valid s
    | none => .fail .missing
  let count : Checked Int := match r.param? "lines" with
    | none => .valid 100
    | some s => (Field.whole (.text s)).andThen fun n =>
      if n < 1 then .fail (.below "1")
      else if lineLimit < n then .fail (.above (toString lineLimit))
      else .valid n
  ((·, ·) <$> path.under (.field "file") <*> count.under (.field "lines")).under (.field "query")

/-- The answer to a request for the list of files. -/
def listing (f : LogFolder) : Response :=
  .good (.list (f.listed.map fun x => .object [("name", .text x.name), ("size", .int x.octets.length)]))

/-- The answer to a request for the last lines of a file. -/
def tailing (f : LogFolder) (r : Request) : Except Failure Response :=
  match tailParams r with
  | .invalid ds => .ok (.unfit ds)
  | .valid (path, count) =>
    if path.toList.contains '\x00' then .error .nulInPath
    else
      match f.nameOf? path with
      | none => .ok (.refusal 400 "Invalid log file name")
      | some name =>
        match f.file? name with
        | none => .ok (.refusal 404 ("Log file not found: " ++ path))
        | some x => .ok (.good (.object [("file", .text path),
            ("lines", .list ((tail x count.toNat).map .text))]))

end LogFolder

end FaultDesk
