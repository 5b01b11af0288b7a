import FaultDesk.Checkpoint
import FaultDesk.Config.File
import FaultDesk.Lease
import FaultDesk.Register.Entry
import FaultDesk.Selection
import FaultDesk.Source.Reader
import FaultDesk.Sync.Handling

/-!
The desk that turns readings into complaints: the rules, the readings, the register, the timers and
the lease, and one run over them. A run takes the lease, reads what has come since the checkpoint,
block after block, handles the faults it finds, and moves the checkpoint. Whatever stops it is
reported.
-/

namespace FaultDesk

/-- The parts of the source of readings. -/
inductive SourcePart where
  | stream
  | history
  | communication
  | power
deriving DecidableEq, Repr

namespace SourcePart

def name : SourcePart → String
  | stream => "stream"
  | history => "history"
  | communication => "comm"
  | power => "power"

end SourcePart

structure Desk where
  now : Instant
  /-- What reading the rules gives. -/
  rules : Except FileFault Config
  rulesPath : String
  readings : Readings
  /-- The names of the parts of the source that are down. -/
  downParts : List String
  register : Register
  /-- So many faults are refused before the register is asked again. -/
  refusals : Nat
  submittedBy : Option String
  /-- So many hours before now samples are read where there is no checkpoint. -/
  lookback : Double
  timers : Timers
  leases : LeaseTable
  lease : Lease
  dryRun : Bool
  development : Bool
  audit : List AuditRecord
  /-- The report of the last run that held the lease. -/
  last : Option RunReport

namespace Desk

def clientId (d : Desk) : String := d.readings.client

/-- The key of the checkpoint. -/
def runKey (d : Desk) : String := Checkpoint.key d.clientId

/-- Whether faults are only written down. -/
def simulates (d : Desk) : Bool := d.dryRun || d.development

/-- The desk with the rules of a configuration in raw form. -/
def withRules (d : Desk) (raw : Datum) : Desk := { d with rules := (Config.check raw).mapError .refused }

/-- What a part of the source gives, unless it is down. -/
def fromPart {α : Type} (d : Desk) (part : SourcePart) (x : Except Failure α) : Except Failure α :=
  if d.downParts.contains part.name then .error (.sourceDown part.name) else x

/-- The book the faults of a desk go into. -/
def book (mapping : ComplaintMapping) : IncidentBook Desk where
  find d unit tag := d.register.find unit tag
  enter d c :=
    if d.refusals = 0 then
      match d.register.enter ⟨mapping, d.clientId, d.submittedBy⟩ d.now c with
      | (.ok _, register) => (true, { d with register })
      | (.error _, register) => (false, { d with register })
    else (false, { d with refusals := d.refusals - 1 })

/-- The states that are worked out; one that cannot be worked out gives none. -/
def computedSamples (d : Desk) (reader : SourceReader) : List Sample :=
  let given (part : SourcePart) (x : Except Failure (List Sample)) : List Sample :=
    match d.fromPart part x with
    | .ok ss => ss
    | .error _ => []
  given .communication (reader.communication d.readings d.now) ++
    given .power (reader.power d.readings d.now)

/-- The past of a unit as far as the longest window goes; none where it cannot be read. -/
def pastOf (d : Desk) (reader : SourceReader) (hours : Double) (unit : String) : List Sample :=
  match d.fromPart .history (reader.history d.readings d.now [unit] hours .unified) with
  | .ok ss => ss
  | .error _ => []

/-- The selector of a configuration. The past is asked for only where a rule has a window. -/
def selector (d : Desk) (c : Config) : Selector :=
  let hours := c.maxWindowHours
  Selector.ofConfig c (if hours.isZero then none else some (d.pastOf (.ofConfig c) hours)) d.now

/-- The joined rows after a time, each with its samples, up to the first row that cannot be used. -/
def stream (d : Desk) (reader : SourceReader) (since : Instant) :
    Except Failure (List (Row × List Sample) × Option (Row × Failure)) := do
  return reader.explodeRows (← d.fromPart .stream (SourceReader.streamRows d.readings (.utc since)))

end Desk

/-- A run on its way through the blocks. -/
structure Run where
  handled : Handled
  /-- The keys of the winners that have been given out. -/
  given : List (String × String)
  /-- Whether the first sample of the next block has been taken. -/
  begun : Bool
  /-- How many samples have been taken. -/
  reads : Nat
  /-- Whether the stream has come to its end. -/
  ended : Bool
  /-- The greatest time of the samples that have been taken. -/
  latest : Option Instant
deriving Repr

namespace Run

def start : Run := ⟨.none, [], false, 0, false, none⟩

/-- The run after the samples that complete a block are taken. -/
def reading (r : Run) (b : Block) (next : Option Block) : Run :=
  let ss := Selector.readsFor r.begun b next
  { r with
    reads := r.reads + ss.length
    latest := SelectionEvent.latest r.latest (ss.map .read)
    begun := !b.streamed.isEmpty
    ended := !next.any (!·.streamed.isEmpty) }

end Run

namespace Desk

/-- Handles one winner. -/
def takeWinner (c : Config) (state : Run × Desk) (winner : Candidate) : Run × Desk :=
  let (r, d) := state
  let h := { r.handled with counts.candidates := r.handled.counts.candidates + 1 }
  let (h, d) := h.take (book c.complaints) (closedSet c.closedStatuses) d.simulates winner d
  ({ r with handled := h }, d)

/-- Takes one block: its samples are read, the lease is renewed, and its winners are handled. Whether
the lease is still held makes no difference. -/
def takeBlock (c : Config) (sel : Selector) (b : Block) (next : Option Block) (r : Run) (d : Desk) :
    Option Failure × Run × Desk :=
  let r := r.reading b next
  match d.lease.renew d.now d.leases with
  | (.error e, lease, leases) => (some e, r, { d with lease, leases })
  | (.ok _, lease, leases) =>
    let d := { d with lease, leases }
    let f := sel.flush b.unit b.samples d.timers
    let d := { d with timers := f.timers }
    match f.winners with
    | .error e => (some e, r, d)
    | .ok cs =>
      let (cs, given, _) := Selector.giveOut r.given none cs
      let (r, d) := cs.foldl (takeWinner c) ({ r with given }, d)
      (none, r, d)

/-- Blocks, each with the one that follows. -/
def followed : List Block → List (Block × Option Block)
  | [] => []
  | b :: rest => (b, rest.head?) :: followed rest

/-- The blocks that are complete before a stream ends or breaks off. One that breaks off leaves the
last of its blocks open. -/
def completed (stream computed : List Sample) (breaks : Bool) : List (Block × Option Block) :=
  if breaks then (followed (streamBlocks (byUnit stream) computed).1).dropLast
  else followed (blocks stream computed)

/-- Takes block after block until one fails. -/
def takeBlocks (c : Config) (sel : Selector) : List (Block × Option Block) → Run → Desk →
    Option Failure × Run × Desk
  | [], r, d => (none, { r with ended := true }, d)
  | (b, next) :: rest, r, d =>
    match takeBlock c sel b next r d with
    | (some e, r, d) => (some e, r, d)
    | (none, r, d) => takeBlocks c sel rest r d

/-- The rows of the stream that have been pulled to take so many samples. -/
def pulled : Nat → List (Row × List Sample) → List Row
  | _, [] => []
  | 0, _ => []
  | n + 1, (row, ss) :: rest => row :: pulled (n + 1 - ss.length) rest

/-- The records of the rows that a run has pulled, among them the one the stream has broken off at. -/
def rowRecords (r : Run) (rows : List (Row × List Sample)) (broken : Option Row) :
    List AuditRecord :=
  (if r.ended then rows.map (·.1) ++ broken.toList else pulled r.reads rows).map fun row =>
    ⟨.raw "unified", row⟩

/-- What a run comes to when its blocks have been taken. Unless something has failed, the checkpoint is
moved to the latest sample. -/
def conclude (d : Desk) (r : Run) (failure : Option Failure) (report : RunReport) :
    RunReport × Desk :=
  let report := { report with counts := r.handled.counts }
  match failure, r.latest with
  | some f, _ => ({ report with error := some f.message }, d)
  | none, none => (report, d)
  | none, some latest =>
    match Checkpoint.set d.register d.runKey (.utc latest) d.now with
    | (.error f, register) => ({ report with error := some f.message }, { d with register })
    | (.ok _, register) => ({ report with checkpoint := some latest }, { d with register })

/-- The work of a run that holds the lease, after the rules have been read. -/
def work (d : Desk) (c : Config) (report : RunReport) : RunReport × Desk :=
  match Checkpoint.get d.register d.runKey d.lookback d.now with
  | .error f => ({ report with error := some f.message }, d)
  | .ok since =>
    let report := { report with since := some since }
    let reader := SourceReader.ofConfig c
    let computed := d.computedSamples reader
    match d.stream reader since with
    | .error f => ({ report with error := some f.message }, d)
    | .ok (rows, broken) =>
      let (failure, r, d) := takeBlocks c (d.selector c)
        (completed (rows.flatMap (·.2)) computed broken.isSome) .start d
      let raw := if d.development then rowRecords r rows (broken.map (·.1)) else []
      conclude { d with audit := d.audit ++ r.handled.audit ++ raw } r
        (failure.or (broken.map (·.2))) report

/-- A name that no record of the lease goes by. -/
def freshOwner (t : LeaseTable) : String :=
  String.join ("run" :: t.records.map (·.2.owner))

/-- One run. It fails only where the lease cannot be asked for or given back. -/
def run (d : Desk) : Except Failure RunReport × Desk :=
  let owner := freshOwner d.leases
  let report := RunReport.start d.now
  match d.lease.acquire owner d.now d.leases with
  | (.error f, lease, leases) => (.error f, { d with lease, leases })
  | (.ok false, lease, leases) =>
    (.ok { report with skipped := true, finished := some d.now }, { d with lease, leases })
  | (.ok true, lease, leases) =>
    let d := { d with lease, leases }
    let (report, d) := match d.rules with
      | .error f => ({ report with error := some (f.message d.rulesPath) }, d)
      | .ok c => d.work c report
    match d.lease.release owner d.leases with
    | (.error f, lease, leases) => (.error f, { d with lease, leases })
    | (.ok _, lease, leases) =>
      let report := { report with finished := some d.now }
      (.ok report, { d with lease, leases, last := some report })

/-- A run while the lease is held under another name; whether it could be taken under that name. -/
def runBeside (d : Desk) (owner : String) : Except Failure (Bool × RunReport) × Desk :=
  match d.lease.acquire owner d.now d.leases with
  | (.error f, lease, leases) => (.error f, { d with lease, leases })
  | (.ok held, lease, leases) =>
    match ({ d with lease, leases } : Desk).run with
    | (.error f, d) => (.error f, d)
    | (.ok report, d) =>
      if held then
        match d.lease.release owner d.leases with
        | (r, lease, leases) => (r.map fun _ => (true, report), { d with lease, leases })
      else (.ok (false, report), d)

end Desk

end FaultDesk
