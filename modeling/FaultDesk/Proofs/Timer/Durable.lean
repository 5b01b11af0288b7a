import FaultDesk.Proofs.Timer.Access

/-!
Records in memory and records in a table. The table keeps no offsets, and a tracker that is put up anew
finds nothing but what the table holds; still both answer every request alike, since all that is
kept is UTC.
-/

namespace FaultDesk

/-- What a tracker of timers is asked to do. -/
inductive TimerRequest where
  | observe (key : TimerKey) (at_ : Stamp)
  | clear (key : TimerKey)
  | elapsed (key : TimerKey) (at_ : Stamp)
  | sustained (key : TimerKey) (duration : Option Duration) (at_ : Stamp) (since : Option Stamp)
deriving DecidableEq

inductive TimerAnswer where
  | start (s : Stamp)
  | cleared
  | span (s : Span)
  | verdict (b : Bool)
deriving DecidableEq

namespace Timers

def serve (t : Timers) : TimerRequest → Except Failure TimerAnswer × Timers
  | .observe key at_ => ((t.observe key at_).1.map .start, (t.observe key at_).2)
  | .clear key => (.ok .cleared, t.clear key)
  | .elapsed key at_ => ((t.elapsed key at_).1.map .span, (t.elapsed key at_).2)
  | .sustained key d at_ since =>
    ((t.sustained key d at_ since).1.map .verdict, (t.sustained key d at_ since).2)

/-- A tracker that is put up anew on the same records. -/
def reopened (t : Timers) : Timers := { empty t.durable with records := t.records }

/-- The timers before a request, put up anew if they are to be. -/
def resumed (t : Timers) (anew : Bool) : Timers := if anew then t.reopened else t

/-- The answers to one request after another, and the timers at the end. Before each request the
tracker may be put up anew. -/
def session : List (Bool × TimerRequest) → Timers → List (Except Failure TimerAnswer) × Timers
  | [], t => ([], t)
  | (anew, request) :: rest, t =>
    let (answer, t) := (t.resumed anew).serve request
    let (answers, t) := session rest t
    (answer :: answers, t)

theorem session_cons (anew : Bool) (request : TimerRequest) (rest : List (Bool × TimerRequest))
    (t : Timers) : session ((anew, request) :: rest) t =
      (((t.resumed anew).serve request).1 :: (session rest ((t.resumed anew).serve request).2).1,
        (session rest ((t.resumed anew).serve request).2).2) := rfl

/-! ## A table beside a memory -/

/-- A table holds the records of a memory without their offsets, and all of these are UTC. -/
structure Mirrors (t u : Timers) : Prop where
  memory : t.durable = false
  table : u.durable = true
  memoryReliable : t.Reliable
  tableReliable : u.Reliable
  find? : ∀ key, u.find? key = (t.find? key).map fun s => .naive s.wall
  utc : ∀ key s, t.find? key = some s → s = .utc s.wall

theorem mirrors_empty : Mirrors (empty false) (empty true) :=
  ⟨rfl, rfl, empty_reliable _, empty_reliable _, fun _ => rfl, fun _ _ h => by cases h⟩

namespace Mirrors

variable {t u : Timers}

theorem reopened (h : Mirrors t u) : Mirrors t u.reopened :=
  ⟨h.memory, h.table, h.memoryReliable, ⟨rfl, fun _ _ => rfl⟩, h.find?, h.utc⟩

theorem noted (h : Mirrors t u) (what : TimerAccess) (key : TimerKey) :
    Mirrors (t.noted what key) (u.noted what key) :=
  ⟨h.memory, h.table, ⟨h.memoryReliable.present, h.memoryReliable.steady⟩,
    ⟨h.tableReliable.present, h.tableReliable.steady⟩, h.find?, h.utc⟩

theorem written (h : Mirrors t u) (key : TimerKey) (i : Instant) :
    Mirrors (t.written key (.utc i)) (u.written key (.utc i)) := by
  have hmemory : t.kept (.utc i) = .utc i := by simp [kept, h.memory]
  have htable : u.kept (.utc i) = .naive i := by simp [kept, h.table, Stamp.utc, Stamp.naive]
  refine ⟨h.memory, h.table, ⟨h.memoryReliable.present, h.memoryReliable.steady⟩,
    ⟨h.tableReliable.present, h.tableReliable.steady⟩, ?_, ?_⟩
  · intro other
    rw [find?_written, find?_written, hmemory, htable]
    split
    next => rfl
    next => exact h.find? other
  · intro other s hs
    rw [find?_written, hmemory] at hs
    split at hs
    next =>
      cases hs
      rfl
    next => exact h.utc other s hs

theorem dropped (h : Mirrors t u) (key : TimerKey) : Mirrors (t.dropped key) (u.dropped key) := by
  refine ⟨h.memory, h.table, ⟨h.memoryReliable.present, h.memoryReliable.steady⟩,
    ⟨h.tableReliable.present, h.tableReliable.steady⟩, ?_, ?_⟩
  · intro other
    rw [find?_dropped, find?_dropped]
    split
    next => rfl
    next => exact h.find? other
  · intro other s hs
    rw [find?_dropped] at hs
    split at hs
    next => cases hs
    next => exact h.utc other s hs

/-- A record is read from the table as it stands in memory. -/
theorem recalled_eq (h : Mirrors t u) (key : TimerKey) :
    (u.find? key).map u.recalled = (t.find? key).map t.recalled := by
  rw [h.find? key]
  cases hs : t.find? key with
  | none => rfl
  | some s =>
    have hutc := h.utc key s hs
    simp only [Option.map_some, recalled, h.table, h.memory, Bool.false_eq_true, ↓reduceIte]
    exact congrArg some hutc.symm

end Mirrors

/-! ## The requests -/

/-- Two outcomes with one result that leave a memory and the table that mirrors it. -/
structure MirrorOutcome {α : Type} (x y : α × Timers) : Prop where
  result : y.1 = x.1
  timers : Mirrors x.2 y.2

theorem MirrorOutcome.split {α : Type} {x y : α × Timers} (h : MirrorOutcome x y) :
    ∃ a t u, x = (a, t) ∧ y = (a, u) ∧ Mirrors t u :=
  ⟨x.1, x.2, y.2, rfl, Prod.ext h.result rfl, h.timers⟩

namespace Mirrors

variable {t u : Timers}

theorem get (h : Mirrors t u) (key : TimerKey) : MirrorOutcome (t.get key) (u.get key) := by
  rw [h.memoryReliable.get_eq, h.tableReliable.get_eq, h.recalled_eq]
  exact ⟨rfl, h.noted .get key⟩

theorem clear (h : Mirrors t u) (key : TimerKey) : Mirrors (t.clear key) (u.clear key) := by
  rw [h.memoryReliable.clear_eq, h.tableReliable.clear_eq]
  exact h.dropped key

theorem observe (h : Mirrors t u) (key : TimerKey) (at_ : Stamp) :
    MirrorOutcome (t.observe key at_) (u.observe key at_) := by
  obtain ⟨found, t', u', ht, hu, h'⟩ := (h.get key).split
  unfold Timers.observe
  rw [ht, hu]
  match found with
  | .error e => exact ⟨rfl, h'⟩
  | .ok (some s) => exact ⟨rfl, h'⟩
  | .ok none =>
    dsimp only
    cases at_.instant? with
    | none => exact ⟨rfl, h'⟩
    | some i =>
      dsimp only
      rw [h'.memoryReliable.put_eq, h'.tableReliable.put_eq]
      exact ⟨rfl, h'.written key i⟩

theorem elapsed (h : Mirrors t u) (key : TimerKey) (at_ : Stamp) :
    MirrorOutcome (t.elapsed key at_) (u.elapsed key at_) := by
  obtain ⟨found, t', u', ht, hu, h'⟩ := (h.get key).split
  unfold Timers.elapsed
  rw [ht, hu]
  match found with
  | .error e => exact ⟨rfl, h'⟩
  | .ok none => exact ⟨rfl, h'⟩
  | .ok (some s) => exact ⟨rfl, h'⟩

theorem sustained (h : Mirrors t u) (key : TimerKey) (d : Option Duration) (at_ : Stamp)
    (since : Option Stamp) :
    MirrorOutcome (t.sustained key d at_ since) (u.sustained key d at_ since) := by
  unfold Timers.sustained
  cases d with
  | none => exact ⟨rfl, h⟩
  | some d =>
    dsimp only
    split
    next => exact ⟨rfl, h⟩
    next =>
      obtain ⟨start, t', u', ht, hu, h'⟩ := (h.observe key (since.getD at_)).split
      rw [ht, hu]
      cases start with
      | error e => exact ⟨rfl, h'⟩
      | ok s => exact ⟨rfl, h'⟩

theorem serve (h : Mirrors t u) (request : TimerRequest) :
    MirrorOutcome (t.serve request) (u.serve request) := by
  cases request with
  | observe key at_ =>
    obtain ⟨hresult, h'⟩ := h.observe key at_
    exact ⟨congrArg (Except.map TimerAnswer.start) hresult, h'⟩
  | clear key => exact ⟨rfl, h.clear key⟩
  | elapsed key at_ =>
    obtain ⟨hresult, h'⟩ := h.elapsed key at_
    exact ⟨congrArg (Except.map TimerAnswer.span) hresult, h'⟩
  | sustained key d at_ since =>
    obtain ⟨hresult, h'⟩ := h.sustained key d at_ since
    exact ⟨congrArg (Except.map TimerAnswer.verdict) hresult, h'⟩

end Mirrors

/-! ## One request after another -/

theorem Mirrors.session {t u : Timers} (h : Mirrors t u) (steps : List (Bool × TimerRequest)) :
    MirrorOutcome (session (steps.map fun s => (false, s.2)) t) (session steps u) := by
  induction steps generalizing t u with
  | nil => exact ⟨rfl, h⟩
  | cons step rest ih =>
    obtain ⟨anew, request⟩ := step
    have hresumed : Mirrors t (u.resumed anew) := by
      cases anew with
      | false => exact h
      | true => exact h.reopened
    obtain ⟨hanswer, hafter⟩ := hresumed.serve request
    obtain ⟨hanswers, hend⟩ := ih hafter
    have hmemory : t.resumed false = t := rfl
    rw [List.map_cons, session_cons, session_cons, hmemory]
    exact ⟨List.cons_eq_cons.mpr ⟨hanswer, hanswers⟩, hend⟩

/-- Whatever is asked of them in whatever order, timers in a table that are put up anew now and then
give the answers of timers in memory, failures included; and at the end the table holds the
records of the memory, all of them UTC, without their offsets. -/
theorem durable_session (steps : List (Bool × TimerRequest)) :
    let memory := session (steps.map fun s => (false, s.2)) (empty false)
    let table := session steps (empty true)
    table.1 = memory.1 ∧
      ∀ key, table.2.find? key = (memory.2.find? key).map (fun s => .naive s.wall) ∧
        ∀ s, memory.2.find? key = some s → s = .utc s.wall := by
  intro memory table
  obtain ⟨hanswers, hend⟩ := mirrors_empty.session steps
  exact ⟨hanswers, fun key => ⟨hend.find? key, hend.utc key⟩⟩

/-- A time with an offset of five and a half hours, asked after by a tracker put up anew. -/
example :
    let key : TimerKey := ⟨"101", "Tag1", "1"⟩
    (session [(false, .observe key ⟨20000000000, some 19800000000⟩), (true, .elapsed key (.naive 200000600)),
      (true, .clear key), (false, .elapsed key (.utc 300000000))] (empty true)).1 =
      [.ok (.start (.utc 200000000)), .ok (.span 600), .ok .cleared, .error .missingKey] := rfl

end Timers

end FaultDesk
