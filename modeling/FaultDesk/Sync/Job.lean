import FaultDesk.Sync.Desk

/-!
A run over services that are given from outside: where the rules, the readings and the incidents come
from is left open, each service may fail whenever it is called, and the clock goes on and others take
leases meanwhile. The calls are noted as they are made.
-/

namespace FaultDesk

/-- What lies outside a run. -/
structure World (σ : Type) where
  now : Instant
  leases : LeaseTable
  /-- What the services keep. -/
  rest : σ

abbrev Serving (σ α : Type) := World σ → Except Failure α × World σ

structure Services (σ : Type) where
  rules : Serving σ Config
  /-- Opens the source of readings. -/
  source : Config → Serving σ Unit
  /-- Opens the store of incidents. -/
  store : Config → Serving σ Unit
  checkpoint : Serving σ Instant
  communication : Config → Serving σ (List Sample)
  power : Config → Serving σ (List Sample)
  /-- The samples after a time, up to the one that cannot be read, if there is such a one. -/
  stream : Config → Instant → Serving σ (List Sample × Option Failure)
  /-- What happens outside while samples are taken from the stream. -/
  elapse : World σ → World σ
  /-- The past readings of a unit. -/
  past : Config → World σ → String → Except Failure (List Sample)
  find : Config → String → String → Serving σ (Option Incident)
  enter : Config → Candidate → Serving σ Unit
  /-- Moves the checkpoint. -/
  move : Instant → Serving σ Unit

/-- What a run calls upon. -/
inductive Call where
  | rules
  | source
  | store
  | checkpoint
  | communication
  | power
  /-- The stream is opened. -/
  | stream
  /-- The stream is read on behind the last of its samples. -/
  | reading
  | renewal
  | past (unit : String)
  /-- A block is judged. -/
  | judging (unit : String)
  /-- An incident is looked up; and the open one that is found, if any. -/
  | find (unit tag : String) (stopping : Option Incident)
  | enter (winner : Candidate)
  | move (to_ : Instant)

namespace Call

/-- Whether a run ends when the call fails. -/
def fatal : Call → Bool
  | communication | power | past _ | find .. | enter _ => false
  | _ => true

def isMove : Call → Bool
  | move _ => true
  | _ => false

/-- The winner that is entered. -/
def entered? : Call → Option Candidate
  | enter winner => some winner
  | _ => none

/-- The key that is looked up, and the open incident that is found, if there is one. -/
def stopped? : Call → Option ((String × String) × Incident)
  | find unit tag (some i) => some ((unit, tag), i)
  | _ => none

end Call

/-- A call that has been made, and how it has failed, if it has. -/
structure Called where
  call : Call
  raised : Option Failure

namespace Called

/-- The failure that ends a run, if the call has met with one. -/
def stop? (x : Called) : Option Failure := if x.call.fatal then x.raised else none

end Called

/-- How a call has failed, if it has. -/
def raisedBy {α : Type} : Except Failure α → Option Failure
  | .ok _ => none
  | .error f => some f

/-- The work of a run on its way. -/
structure Course (σ : Type) where
  world : World σ
  lease : Lease
  timers : Timers
  run : Run
  /-- The time after which samples are read. -/
  since : Option Instant
  /-- The time to which the checkpoint has been moved. -/
  moved : Option Instant
  calls : List Called

namespace Course

variable {σ : Type}

def noted (s : Course σ) (call : Call) (raised : Option Failure) : Course σ :=
  { s with calls := s.calls ++ [⟨call, raised⟩] }

def handledAs (s : Course σ) (h : Handled) : Course σ := { s with run := { s.run with handled := h } }

end Course

/-- Work that ends when a failure is raised; what has been done till then stays done. -/
abbrev Working (σ : Type) := ExceptT Failure (StateM (Course σ))

namespace Working

variable {σ α : Type}

/-- The work done from a state on: what comes of it, and the state after it. -/
def outcome (work : Working σ α) (s : Course σ) : Except Failure α × Course σ := work s

def update (f : Course σ → Course σ) : Working σ Unit := fun s => (.ok (), f s)

def inspect (f : Course σ → α) : Working σ α := fun s => (.ok (f s), s)

/-- Calls upon a service; the run ends when it fails. -/
def ask (call : Call) (service : Serving σ α) : Working σ α := fun s =>
  let (given, world) := service s.world
  (given, ({ s with world }).noted call (raisedBy given))

/-- Calls upon a service that gives no samples when it fails. -/
def attempt (call : Call) (service : Serving σ (List Sample)) : Working σ (List Sample) := fun s =>
  let (given, world) := service s.world
  (.ok (given.toOption.getD []), ({ s with world }).noted call (raisedBy given))

/-- Renews the lease; whether it is still held makes no difference. -/
def renew : Working σ Unit := fun s =>
  let (held, lease, leases) := s.lease.renew s.world.now s.world.leases
  (held.map fun _ => (), ({ s with lease, world.leases := leases }).noted .renewal (raisedBy held))

/-- Reads the stream on behind the last of its samples. -/
def close (broken : Option Failure) : Working σ Unit := fun s =>
  match broken with
  | none => (.ok (), s)
  | some f => (.error f, s.noted .reading (some f))

variable {β : Type}

theorem outcome_bind (work : Working σ α) (f : α → Working σ β) (s : Course σ) :
    (work >>= f).outcome s =
      match work.outcome s with
      | (.ok a, s) => (f a).outcome s
      | (.error e, s) => (.error e, s) := by
  change ExceptT.bindCont f (work s).1 (work s).2 = _
  unfold outcome
  rcases work s with ⟨result, s'⟩
  cases result <;> rfl

theorem outcome_inspect_bind (g : Course σ → α) (f : α → Working σ β) (s : Course σ) :
    (inspect g >>= f).outcome s = (f (g s)).outcome s := outcome_bind ..

theorem outcome_update_bind (g : Course σ → Course σ) (f : Unit → Working σ β) (s : Course σ) :
    (update g >>= f).outcome s = (f ()).outcome (g s) := outcome_bind ..

theorem outcome_attempt_bind (call : Call) (service : Serving σ (List Sample))
    (f : List Sample → Working σ β) (s : Course σ) :
    (attempt call service >>= f).outcome s =
      (f ((service s.world).1.toOption.getD [])).outcome
        (({ s with world := (service s.world).2 }).noted call (raisedBy (service s.world).1)) :=
  outcome_bind ..

theorem outcome_ask_bind (call : Call) (service : Serving σ α) (f : α → Working σ β) (s : Course σ) :
    (ask call service >>= f).outcome s =
      match service s.world with
      | (.ok a, world) => (f a).outcome (({ s with world }).noted call none)
      | (.error e, world) => (.error e, ({ s with world }).noted call (some e)) := by
  rw [outcome_bind]
  unfold ask outcome
  dsimp only
  rcases service s.world with ⟨given, world⟩
  cases given <;> rfl

end Working

namespace Services

open Working

variable {σ : Type}

/-- The selector of a configuration. The past is asked for only where a rule has a window, and where it
cannot be read there is none. -/
def selector (p : Services σ) (c : Config) (w : World σ) : Selector :=
  Selector.ofConfig c
    (if c.maxWindowHours.isZero then none
      else some fun unit => (p.past c w unit).toOption.getD []) w.now

/-- Judges a block. -/
def judge (p : Services σ) (c : Config) (b : Block) : Working σ (List Candidate) := fun s =>
  let f := (p.selector c s.world).flush b.unit b.samples s.timers
  let s := if f.asked then s.noted (.past b.unit) (raisedBy (p.past c s.world b.unit)) else s
  (f.winners, ({ s with timers := f.timers }).noted (.judging b.unit) (raisedBy f.winners))

/-- Looks up the latest incident of a unit and tag. -/
def lookUp (p : Services σ) (c : Config) (unit tag : String) (s : Course σ) :
    Except Failure (Option Incident) × Course σ :=
  let (found, world) := p.find c unit tag s.world
  (found, ({ s with world }).noted
    (.find unit tag (openIncident? (closedSet c.closedStatuses) found)) (raisedBy found))

/-- The book of a course, in which a look-up has found this. -/
def book (p : Services σ) (c : Config) (found : Except Failure (Option Incident)) :
    IncidentBook (Course σ) where
  find _ _ _ := found
  enter s winner :=
    let (entered, world) := p.enter c winner s.world
    ((raisedBy entered).isNone, ({ s with world }).noted (.enter winner) (raisedBy entered))

/-- What becomes of a winner after a look-up has found this. -/
def settle (p : Services σ) (c : Config) (simulate : Bool)
    (looked : Except Failure (Option Incident) × Course σ) (winner : Candidate) : Course σ :=
  let h := looked.2.run.handled
  let taken := Handled.take (p.book c looked.1) (closedSet c.closedStatuses) simulate winner
    { h with counts.candidates := h.counts.candidates + 1 } looked.2
  taken.2.handledAs taken.1

/-- Handles one winner; an incident is looked up unless the key has come before. -/
def takeWinner (p : Services σ) (c : Config) (simulate : Bool) (s : Course σ) (winner : Candidate) :
    Course σ :=
  p.settle c simulate
    (if s.run.handled.keys.contains winner.key then (.ok none, s)
      else p.lookUp c winner.unit winner.tag s) winner

/-- Handles the winners of a block whose keys have not been given out before. -/
def giveOut (p : Services σ) (c : Config) (simulate : Bool) (winners : List Candidate)
    (s : Course σ) : Course σ :=
  let (fresh, given, _) := Selector.giveOut s.run.given none winners
  fresh.foldl (p.takeWinner c simulate) { s with run.given := given }

/-- Takes one block. -/
def takeBlock (p : Services σ) (c : Config) (simulate : Bool) (b : Block) (next : Option Block) :
    Working σ Unit := do
  update fun s => { s with world := p.elapse s.world, run := s.run.reading b next }
  renew
  let winners ← p.judge c b
  update (p.giveOut c simulate winners)

def takeBlocks (p : Services σ) (c : Config) (simulate : Bool) :
    List (Block × Option Block) → Working σ Unit
  | [] => update fun s => { s with world := p.elapse s.world, run.ended := true }
  | (b, next) :: rest => do
    p.takeBlock c simulate b next
    takeBlocks p c simulate rest

/-- The work of a run up to the end of the stream. -/
def gather (p : Services σ) (simulate : Bool) : Working σ Unit := do
  let c ← ask .rules p.rules
  ask .source (p.source c)
  ask .store (p.store c)
  let since ← ask .checkpoint p.checkpoint
  update fun s => { s with since := some since }
  let communication ← attempt .communication (p.communication c)
  let power ← attempt .power (p.power c)
  let (stream, broken) ← ask .stream (p.stream c since)
  p.takeBlocks c simulate (Desk.completed stream (communication ++ power) broken.isSome)
  close broken

/-- Moves the checkpoint to the latest sample, if there is one. -/
def conclude (p : Services σ) : Working σ Unit := do
  match ← inspect fun s => s.run.latest with
  | none => return ()
  | some latest =>
    ask (.move latest) (p.move latest)
    update fun s => { s with moved := some latest }

def work (p : Services σ) (simulate : Bool) : Working σ Unit := do
  p.gather simulate
  p.conclude

end Services

/-- Runs one after the other, with what they keep between them. -/
structure Job (σ : Type) where
  world : World σ
  lease : Lease
  timers : Timers
  /-- Whether faults are only written down. -/
  simulates : Bool
  audit : List AuditRecord
  /-- The report of the last run that held the lease. -/
  last : Option RunReport

namespace Job

variable {σ : Type}

/-- The state in which the work of a run begins. -/
def start (j : Job σ) (owner : String) : Course σ :=
  let (_, lease, leases) := j.lease.acquire owner j.world.now j.world.leases
  ⟨{ j.world with leases }, lease, j.timers, .start, none, none, []⟩

/-- The work of a run that holds the lease. -/
def work (j : Job σ) (p : Services σ) (owner : String) : Except Failure Unit × Course σ :=
  (p.work j.simulates).outcome (j.start owner)

/-- One run under a name: what comes of it, the calls, and the job after it. -/
def run (j : Job σ) (p : Services σ) (owner : String) :
    Except Failure RunReport × List Called × Job σ :=
  let report := RunReport.start j.world.now
  match j.lease.acquire owner j.world.now j.world.leases with
  | (.error f, lease, leases) => (.error f, [], { j with lease, world.leases := leases })
  | (.ok false, lease, leases) =>
    (.ok { report with skipped := true, finished := some j.world.now }, [],
      { j with lease, world.leases := leases })
  | (.ok true, _, _) =>
    let (done, s) := j.work p owner
    let report := { report with
      counts := s.run.handled.counts
      error := (raisedBy done).map Failure.message
      since := s.since
      checkpoint := s.moved }
    match s.lease.release owner s.world.leases with
    | (released, lease, leases) =>
      let after := { j with
        world := { s.world with leases }, lease, timers := s.timers,
        audit := j.audit ++ s.run.handled.audit }
      match released with
      | .error f => (.error f, s.calls, after)
      | .ok _ =>
        let report := { report with finished := some s.world.now }
        (.ok report, s.calls, { after with last := some report })

end Job

/-! ## The services of a desk -/

namespace Desk

/-- What lies outside a run of a desk. Its services keep the register, and how many faults are refused
before the register is asked again. -/
def world (d : Desk) : World (Register × Nat) := ⟨d.now, d.leases, d.register, d.refusals⟩

def services (d : Desk) : Services (Register × Nat) where
  rules w := (d.rules.mapError fun f => .stopped (f.message d.rulesPath), w)
  source _ w := (.ok (), w)
  store _ w := (.ok (), w)
  checkpoint w := (Checkpoint.get w.rest.1 d.runKey d.lookback w.now, w)
  communication c w :=
    (d.fromPart .communication ((SourceReader.ofConfig c).communication d.readings w.now), w)
  power c w := (d.fromPart .power ((SourceReader.ofConfig c).power d.readings w.now), w)
  stream c since w :=
    ((d.stream (.ofConfig c) since).map fun (rows, broken) =>
      (rows.flatMap (·.2), broken.map (·.2)), w)
  elapse w := w
  past c w unit :=
    d.fromPart .history
      ((SourceReader.ofConfig c).history d.readings w.now [unit] c.maxWindowHours .unified)
  find _ unit tag w := (w.rest.1.find unit tag, w)
  enter c winner w :=
    let (register, refusals) := w.rest
    if refusals = 0 then
      let (entered, register) :=
        register.enter ⟨c.complaints, d.clientId, d.submittedBy⟩ w.now winner
      ((entered.map fun _ => ()).mapError fun f => .stopped f.message,
        { w with rest := (register, refusals) })
    else (.error .databaseRefused, { w with rest := (register, refusals - 1) })
  move latest w :=
    let (moved, register) := Checkpoint.set w.rest.1 d.runKey (.utc latest) w.now
    (moved.map fun _ => (), { w with rest := (register, w.rest.2) })

def job (d : Desk) : Job (Register × Nat) :=
  ⟨d.world, d.lease, d.timers, d.simulates, d.audit, d.last⟩

end Desk

end FaultDesk
