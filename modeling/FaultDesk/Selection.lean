import FaultDesk.Arbitration
import FaultDesk.Config.Basic
import FaultDesk.Rate

/-!
Choosing what becomes a fault. Samples come in blocks of one unit each. A block is judged as a whole:
a blocking master match is its only winner; else the latest other master match is; else all samples
go through the ordinary rules, and the last hit wins, or the last hit of each tag.
-/

namespace FaultDesk

structure Selector where
  masters : List MasterRule
  simple : List Rule
  rate : List RateRule
  policy : WinnerPolicy
  /-- Past readings of a unit, where they can be asked for; a failed look-up gives none. -/
  history : Option (String → List Sample)
  /-- The end of the windows of rate rules. -/
  now : Instant

namespace Selector

/-- The selector a configuration describes. -/
def ofConfig (c : Config) (history : Option (String → List Sample)) (now : Instant) : Selector :=
  ⟨c.activeMasters, c.ruleSets.simpleRules, c.ruleSets.rateRules, c.winnerPolicy, history, now⟩

end Selector

/-- Each sample with the others seen at or before it, the most recent first. `seen` holds those that
stand before, latest first. -/
def withRelated (seen : List Sample) : List Sample → List (Sample × List Sample)
  | [] => []
  | s :: rest =>
    (s, (rest.filter (·.time ≤ s.time)).reverse ++ seen.filter (·.time ≤ s.time)) ::
      withRelated (s :: seen) rest

/-- The item with the greatest instant; of equal ones the later item. -/
def latestBy {α : Type} (time : α → Instant) : List α → Option α
  | [] => none
  | x :: rest => some (rest.foldl (fun best y => if time best ≤ time y then y else best) x)

/-- The hits with one more: it takes the place of an earlier or simultaneous one of its tag. -/
def withHit (best : List Candidate) (c : Candidate) : List Candidate :=
  match best with
  | [] => [c]
  | b :: rest =>
    if b.tag = c.tag then (if b.time ≤ c.time then c else b) :: rest else b :: withHit rest c

/-- The last hit of each tag, in order of time. -/
def lastPerTag (hits : List Candidate) : List Candidate :=
  (hits.foldl withHit []).mergeSort fun a b => decide (a.time ≤ b.time)

/-- The winners among the ordinary hits of a unit. -/
def WinnerPolicy.winners (p : WinnerPolicy) (hits : List Candidate) : List Candidate :=
  match p with
  | .single => (latestBy (·.time) hits).toList
  | .perTag => lastPerTag hits

/-- The samples of a unit on the way through the ordinary rules. -/
structure Search where
  timers : Timers
  /-- The past readings of the unit, once they have been asked for. -/
  history : Option History
  hits : List Candidate

namespace Selector

/-- Whether some rate rule is for the tag of a sample. -/
def asksHistory (sel : Selector) (s : Sample) : Bool := sel.rate.any (·.tag == s.tag)

/-- The past readings of a unit in the form rate rules look at. -/
def historyOf (sel : Selector) (unit : String) : Except Failure History :=
  History.ofSamples ((sel.history.map (· unit)).getD [])

/-- Judges one sample by the simple rules. -/
def trySimple (sel : Selector) (s : Sample) (related : List Sample) (st : Search) : Search :=
  match firstMatch s related sel.simple st.timers with
  | (none, t) => { st with timers := t }
  | (some (_, r), t) => { st with timers := t, hits := st.hits ++ [.ofSample s (.simple r) none] }

/-- Judges one sample by the rate rules. -/
def tryRate (sel : Selector) (s : Sample) (related : List Sample) (h : History) (st : Search) :
    Search :=
  match firstRateIn s related h sel.now sel.rate st.timers with
  | (none, t) => { st with timers := t, history := some h }
  | (some c, t) => { st with timers := t, history := some h, hits := st.hits ++ [c] }

/-- Judges the samples of a unit one after the other. The past readings are asked for at the first
sample with the tag of a rate rule. -/
def search (sel : Selector) (unit : String) :
    List (Sample × List Sample) → Search → Option Failure × Search
  | [], st => (none, st)
  | (s, related) :: rest, st =>
    let st := sel.trySimple s related st
    if sel.asksHistory s then
      match st.history with
      | some h => search sel unit rest (sel.tryRate s related h st)
      | none =>
        match sel.historyOf unit with
        | .error e => (some e, st)
        | .ok h => search sel unit rest (sel.tryRate s related h st)
    else search sel unit rest st

end Selector

/-- What has come of a block. -/
structure Flush where
  winners : Except Failure (List Candidate)
  /-- Whether past readings were asked for. -/
  asked : Bool
  timers : Timers

namespace Selector

/-- The winners among the ordinary hits of a block in order of time. -/
def flushOrdinary (sel : Selector) (unit : String) (buffer : List Sample) (t : Timers) : Flush :=
  match sel.search unit (withRelated [] buffer) ⟨t, none, []⟩ with
  | (some e, st) => ⟨.error e, sel.history.isSome, st.timers⟩
  | (none, st) =>
    ⟨.ok (sel.policy.winners st.hits), sel.history.isSome && st.history.isSome, st.timers⟩

/-- The winners of a block of samples of one unit. -/
def flush (sel : Selector) (unit : String) (samples : List Sample) (t : Timers) : Flush :=
  if samples.isEmpty then ⟨.ok [], false, t⟩
  else
    let buffer := Sample.sorted samples
    match arbitrate unit buffer sel.masters t with
    | (.error e, t) => ⟨.error e, false, t⟩
    | (.ok a, t) =>
      match a.blocking with
      | some m => ⟨.ok [m.candidate], false, t⟩
      | none =>
        match latestBy (·.sample.time) a.collected with
        | some m => ⟨.ok [m.candidate], false, t⟩
        | none => sel.flushOrdinary unit buffer t

end Selector

/-- Samples that are judged together: those of one unit that follow each other in the stream, and the
extra ones of that unit. -/
structure Block where
  unit : String
  streamed : List Sample
  extra : List Sample

namespace Block

def samples (b : Block) : List Sample := b.streamed ++ b.extra

end Block

/-- The stream cut where the unit changes. -/
def byUnit : List Sample → List (String × List Sample)
  | [] => []
  | s :: rest =>
    match byUnit rest with
    | (u, ss) :: more => if u = s.unit then (u, s :: ss) :: more else (s.unit, [s]) :: (u, ss) :: more
    | [] => [(s.unit, [s])]

/-- The blocks of the stream; the extra samples of a unit go with its first block. What is left over
are those of units that are not in the stream. -/
def streamBlocks : List (String × List Sample) → List Sample → List Block × List Sample
  | [], extra => ([], extra)
  | (u, ss) :: rest, extra =>
    let (bs, left) := streamBlocks rest (extra.filter (·.unit ≠ u))
    (⟨u, ss, extra.filter (·.unit = u)⟩ :: bs, left)

/-- The blocks of units known from extra samples only, in order of unit. -/
def extraBlocks (extra : List Sample) : List Block :=
  (ascending (extra.map (·.unit))).map fun u => ⟨u, [], extra.filter (·.unit = u)⟩

/-- All blocks, in the order in which they are judged. -/
def blocks (stream extra : List Sample) : List Block :=
  let (bs, left) := streamBlocks (byUnit stream) extra
  bs ++ extraBlocks left

/-- What happens in a selection. -/
inductive SelectionEvent where
  /-- A sample is taken from the stream. -/
  | read (s : Sample)
  /-- A block is complete. -/
  | flush (unit : String)
  /-- Past readings of a unit are asked for. -/
  | history (unit : String)
  | winner (c : Candidate)
  /-- The selection ends for an error. -/
  | failed (e : Failure)

namespace SelectionEvent

def winner? : SelectionEvent → Option Candidate
  | winner c => some c
  | _ => none

def read? : SelectionEvent → Option Sample
  | read s => some s
  | _ => none

def isFlush : SelectionEvent → Bool
  | flush _ => true
  | _ => false

/-- The greatest time of the samples taken from the stream. -/
def latest (before : Option Instant) (events : List SelectionEvent) : Option Instant :=
  (events.filterMap read?).foldl (fun m s => some (max (m.getD s.time) s.time)) before

def flushes (events : List SelectionEvent) : Nat := events.countP isFlush

end SelectionEvent

namespace Selector

/-- Winners not yet given out, as far as more are wanted; the keys given out so far; and how many are
still wanted. -/
def giveOut (given : List (String × String)) (wanted : Option Nat) :
    List Candidate → List Candidate × List (String × String) × Option Nat
  | [] => ([], given, wanted)
  | c :: rest =>
    if wanted = some 0 then ([], given, wanted)
    else if given.contains c.key then giveOut given wanted rest
    else
      let (cs, given, wanted) := giveOut (c.key :: given) (wanted.map (· - 1)) rest
      (c :: cs, given, wanted)

/-- The samples that are taken before a block is complete: its own, less the first when that has been
taken before, and the one that shows that the unit has changed. -/
def readsFor (begun : Bool) (b : Block) (next : Option Block) : List Sample :=
  b.streamed.drop (if begun then 1 else 0) ++ ((next.bind (·.streamed.head?)).toList)

/-- Judges block after block, until as many winners are found as are wanted. -/
def selectFrom (sel : Selector) (begun : Bool) (given : List (String × String))
    (wanted : Option Nat) : List Block → Timers → List SelectionEvent × Timers
  | [], t => ([], t)
  | b :: rest, t =>
    let reads := (readsFor begun b rest.head?).map SelectionEvent.read
    let f := sel.flush b.unit b.samples t
    let start := reads ++ .flush b.unit :: (if f.asked then [.history b.unit] else [])
    match f.winners with
    | .error e => (start ++ [.failed e], f.timers)
    | .ok cs =>
      let (cs, given, wanted) := giveOut given wanted cs
      let start := start ++ cs.map .winner
      if wanted = some 0 then (start, f.timers)
      else
        let (more, t) := selectFrom sel (!b.streamed.isEmpty) given wanted rest f.timers
        (start ++ more, t)

/-- Selects from a stream in order of unit and time, with extra samples that join their units. At most
`wanted` winners are looked for. -/
def select (sel : Selector) (wanted : Option Nat) (stream extra : List Sample) (t : Timers) :
    List SelectionEvent × Timers :=
  sel.selectFrom false [] wanted (blocks stream extra) t

end Selector

end FaultDesk
