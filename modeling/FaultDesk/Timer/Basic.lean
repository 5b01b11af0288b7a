import FaultDesk.Datum.Normal
import FaultDesk.Rule.Duration

/-!
Timers: since when a condition has been true without a break, one record a key. A record is made
when the condition is first seen true and goes when it is seen false. The records lie in memory, or
in a table that keeps no offsets.
-/

namespace FaultDesk

/-- What a timer is kept under. -/
structure TimerKey where
  unit : String
  tag : String
  value : String
deriving DecidableEq, Repr, Inhabited

namespace TimerKey

def ofValues (unit tag value : Datum) : Except Failure TimerKey :=
  value.normalText.map fun v => ⟨unit.shown, tag.shown, v⟩

def fields (k : TimerKey) : List String := [k.unit, k.tag, k.value]

end TimerKey

/-- What can be asked of the records. -/
inductive TimerAccess where
  | get
  | put
  | delete
deriving DecidableEq, Repr

namespace TimerAccess

def name : TimerAccess → String
  | get => "get"
  | put => "put"
  | delete => "delete"

end TimerAccess

structure Timers where
  /-- Whether the records lie in a table, which keeps no offsets. -/
  durable : Bool
  records : List (TimerKey × Stamp)
  /-- Whether the table is there. -/
  present : Bool
  /-- Whether an access fails, by the number of accesses made before. -/
  outage : Nat → TimerAccess → Bool
  /-- The number of accesses made. -/
  count : Nat
  /-- The accesses made since the list was last emptied, latest first. -/
  calls : List (TimerAccess × TimerKey)

namespace Timers

/-- Records that never fail. -/
def empty (durable : Bool) : Timers := ⟨durable, [], true, fun _ _ => false, 0, []⟩

instance : Inhabited Timers := ⟨empty false⟩

/-- The record of a key. -/
def find? (t : Timers) (key : TimerKey) : Option Stamp := t.records.lookup key

/-- An access is noted, and fails while there is an outage or the table is gone. -/
def access (t : Timers) (what : TimerAccess) (key : TimerKey) : Except Failure Unit × Timers :=
  let noted := { t with count := t.count + 1, calls := (what, key) :: t.calls }
  if t.outage t.count what then (.error .storeDown, noted)
  else if t.present then (.ok (), noted)
  else (.error .databaseRefused, noted)

/-- What a stamp is kept as. -/
def kept (t : Timers) (s : Stamp) : Stamp := if t.durable then ⟨s.wall, none⟩ else s

/-- What a kept stamp is read as. -/
def recalled (t : Timers) (s : Stamp) : Stamp :=
  if t.durable then ⟨s.wall, some (s.offset.getD 0)⟩ else s

def get (t : Timers) (key : TimerKey) : Except Failure (Option Stamp) × Timers :=
  match t.access .get key with
  | (.error e, t) => (.error e, t)
  | (.ok _, t) => (.ok ((t.find? key).map t.recalled), t)

/-- The records with one replaced or added at the end. -/
def replaced (records : List (TimerKey × Stamp)) (key : TimerKey) (s : Stamp) :
    List (TimerKey × Stamp) :=
  match records with
  | [] => [(key, s)]
  | (k, v) :: rest => if k = key then (k, s) :: rest else (k, v) :: replaced rest key s

theorem lookup_replaced (records : List (TimerKey × Stamp)) (key other : TimerKey) (s : Stamp) :
    (replaced records key s).lookup other = if other = key then some s else records.lookup other := by
  induction records with
  | nil =>
    by_cases h : other = key
    · simp [replaced, h]
    · simp [replaced, List.lookup_cons, beq_eq_false_iff_ne.mpr h, h]
  | cons r rest ih =>
    obtain ⟨k, v⟩ := r
    by_cases hk : k = key
    · by_cases h : other = key
      · simp [replaced, hk, h]
      · simp [replaced, List.lookup_cons, hk, beq_eq_false_iff_ne.mpr h, h]
    · by_cases h : other = k
      · simp [replaced, hk, h]
      · simp [replaced, List.lookup_cons, hk, beq_eq_false_iff_ne.mpr h, ih]

def put (t : Timers) (key : TimerKey) (s : Stamp) : Except Failure Unit × Timers :=
  match t.access .put key with
  | (.error e, t) => (.error e, t)
  | (.ok _, t) => (.ok (), { t with records := replaced t.records key (t.kept s) })

def delete (t : Timers) (key : TimerKey) : Except Failure Unit × Timers :=
  match t.access .delete key with
  | (.error e, t) => (.error e, t)
  | (.ok _, t) => (.ok (), { t with records := t.records.filter (·.1 ≠ key) })

/-- Starts the timer of a key unless it runs already, and gives its start. -/
def observe (t : Timers) (key : TimerKey) (at_ : Stamp) : Except Failure Stamp × Timers :=
  match t.get key with
  | (.error e, t) => (.error e, t)
  | (.ok (some s), t) => (.ok s, t)
  | (.ok none, t) =>
    match at_.instant? with
    | none => (.error .timeOutOfRange, t)
    | some i =>
      match t.put key (.utc i) with
      | (.error e, t) => (.error e, t)
      | (.ok _, t) => (.ok (.utc i), t)

/-- Drops the timer of a key; a failure is let pass. -/
def clear (t : Timers) (key : TimerKey) : Timers := (t.delete key).2

/-- The time from a start to a later stamp. -/
def spanSince (start at_ : Stamp) : Except Failure Span :=
  match at_.instant? with
  | none => .error .timeOutOfRange
  | some i =>
    match start.offset with
    | none => .error .wrongKind
    | some o => .ok (i - (start.wall - o))

/-- How long the timer of a key has run. -/
def elapsed (t : Timers) (key : TimerKey) (at_ : Stamp) : Except Failure Span × Timers :=
  match t.get key with
  | (.error e, t) => (.error e, t)
  | (.ok none, t) => (.error .missingKey, t)
  | (.ok (some s), t) => (spanSince s at_, t)

/-- Whether a condition has held long enough. A missing or instant duration asks nothing of the
records; a failure of the records means not yet. `since` is when the condition was first seen true,
if that was before. -/
def sustained (t : Timers) (key : TimerKey) (duration : Option Duration) (at_ : Stamp)
    (since : Option Stamp) : Except Failure Bool × Timers :=
  match duration with
  | none => (.ok true, t)
  | some d =>
    if d.isInstant then (.ok true, t)
    else
      match t.observe key (since.getD at_) with
      | (.error _, t) => (.ok false, t)
      | (.ok start, t) =>
        (do
          let run ← spanSince start at_
          let needed ← d.span
          return decide (needed ≤ run), t)

end Timers

end FaultDesk
