import FaultDesk.Proofs.Sync.Accounting
import FaultDesk.Proofs.Sync.DryRun

/-!
A run of a desk is a run over the services of the desk: its calls upon the register, the source of
readings and the settings come to the same, one after the other, and so do its timers, its lease and
its audit records, but for those of the rows it has read.
-/

namespace FaultDesk

namespace Desk

variable {c : Config} {d e : Desk} {since : Option Instant} {s : Course (Register × Nat)} {r : Run}

/-- A desk within a run, when the run over its services has come so far. -/
def during (d : Desk) (s : Course (Register × Nat)) : Desk :=
  { d with
    register := s.world.rest.1, refusals := s.world.rest.2, leases := s.world.leases,
    lease := s.lease, timers := s.timers }

/-- A run over the services of a desk stands where the run of the desk does, and has not moved the
checkpoint yet. -/
structure Follows (d : Desk) (since : Option Instant) (s : Course (Register × Nat)) (r : Run)
    (e : Desk) : Prop where
  now : s.world.now = d.now
  since : s.since = since
  moved : s.moved = none
  run : s.run = r
  desk : e = d.during s

/-! ## Winners -/

theorem Follows.enter (h : Follows d since s r e) (found : Except Failure (Option Incident))
    (w : Candidate) :
    ((d.services.book c found).enter s w).1 = ((book c.complaints).enter e w).1 ∧
      Follows d since ((d.services.book c found).enter s w).2 r
        ((book c.complaints).enter e w).2 := by
  obtain ⟨hnow, hsince, hmoved, rfl, rfl⟩ := h
  obtain ⟨⟨now, leases, register, refusals⟩, lease, timers, run, since', moved, calls⟩ := s
  obtain rfl : now = d.now := hnow
  unfold Services.book services during Desk.book
  dsimp only
  by_cases hrefusals : refusals = 0
  · have hid : Desk.clientId { d with register, refusals, leases, lease, timers } = d.clientId := rfl
    simp only [if_pos hrefusals, hid]
    obtain ⟨f | number, after⟩ := register.enter ⟨c.complaints, d.clientId, d.submittedBy⟩ d.now w
    next => exact ⟨rfl, rfl, hsince, hmoved, rfl, rfl⟩
    next => exact ⟨rfl, rfl, hsince, hmoved, rfl, rfl⟩
  · simp only [if_neg hrefusals]
    exact ⟨rfl, rfl, hsince, hmoved, rfl, rfl⟩

/-- A winner is settled in a run over the services as it is handled in a run of the desk, when the
look-up has found what the register holds. -/
theorem Follows.settle {found : Except Failure (Option Incident)} {w : Candidate}
    (h : Follows d since s r e)
    (hfind : r.handled.keys.contains w.key = false → found = e.register.find w.unit w.tag) :
    Follows d since (d.services.settle c d.simulates (found, s) w) (Desk.takeWinner c (r, e) w).1
      (Desk.takeWinner c (r, e) w).2 := by
  have htaken := @Handled.take_alike _ _ (book c.complaints) (d.services.book c found)
    (closedSet c.closedStatuses) d.simulates w
    { r.handled with counts.candidates := r.handled.counts.candidates + 1 } e s
    (fun e' s' => Follows d since s' r e') h hfind (h.enter found w)
  obtain ⟨hhandled, hafter⟩ := htaken
  have hsimulates : e.simulates = d.simulates := by
    rw [h.desk]
    rfl
  unfold Services.settle Desk.takeWinner
  dsimp only
  rw [hsimulates, h.run, ← hhandled]
  refine ⟨hafter.now, hafter.since, hafter.moved, ?_, hafter.desk⟩
  unfold Course.handledAs
  dsimp only
  rw [hafter.run]

theorem Follows.takeWinner (h : Follows d since s r e) (w : Candidate) :
    Follows d since (d.services.takeWinner c d.simulates s w) (Desk.takeWinner c (r, e) w).1
      (Desk.takeWinner c (r, e) w).2 := by
  unfold Services.takeWinner
  rw [h.run]
  split
  next hold =>
    refine h.settle fun hnew => ?_
    rw [hold] at hnew
    cases hnew
  next =>
    have hlooked : Follows d since (d.services.lookUp c w.unit w.tag s).2 r e :=
      ⟨h.now, h.since, h.moved, h.run, h.desk⟩
    refine hlooked.settle fun _ => ?_
    rw [h.desk]
    rfl

theorem Follows.winners (h : Follows d since s r e) (ws : List Candidate) :
    Follows d since (ws.foldl (d.services.takeWinner c d.simulates) s)
      (ws.foldl (Desk.takeWinner c) (r, e)).1 (ws.foldl (Desk.takeWinner c) (r, e)).2 := by
  induction ws generalizing s r e with
  | nil => exact h
  | cons w rest ih => exact ih (h.takeWinner w)

/-! ## Blocks -/

theorem selector_services (hnow : s.world.now = d.now) (c : Config) :
    d.services.selector c s.world = d.selector c := by
  have hpast : (fun unit => ((d.services.past c s.world unit).toOption.getD [])) =
      d.pastOf (.ofConfig c) c.maxWindowHours := by
    funext unit
    unfold services pastOf
    dsimp only
    rw [hnow]
    cases d.fromPart .history
        ((SourceReader.ofConfig c).history d.readings d.now [unit] c.maxWindowHours .unified) with
    | ok ss => rfl
    | error f => rfl
  unfold Services.selector selector
  rw [hpast, hnow]

theorem Follows.renew (h : Follows d since s r e) :
    (Working.renew.outcome s).1 = (e.lease.renew e.now e.leases).1.map (fun _ => ()) ∧
      Follows d since (Working.renew.outcome s).2 r
        { e with
          lease := (e.lease.renew e.now e.leases).2.1
          leases := (e.lease.renew e.now e.leases).2.2 } := by
  obtain ⟨hnow, hsince, hmoved, hrun, rfl⟩ := h
  have hrenew : (d.during s).lease.renew (d.during s).now (d.during s).leases =
      s.lease.renew s.world.now s.world.leases := by
    rw [hnow]
    rfl
  rw [hrenew]
  exact ⟨rfl, hnow, hsince, hmoved, hrun, rfl⟩

theorem Follows.judge (h : Follows d since s r e) (b : Block) :
    ((d.services.judge c b).outcome s).1 =
        ((d.selector c).flush b.unit b.samples e.timers).winners ∧
      Follows d since ((d.services.judge c b).outcome s).2 r
        { e with timers := ((d.selector c).flush b.unit b.samples e.timers).timers } := by
  obtain ⟨hnow, hsince, hmoved, hrun, rfl⟩ := h
  have htimers : (d.during s).timers = s.timers := rfl
  unfold Services.judge Working.outcome
  dsimp only
  rw [selector_services hnow, htimers]
  split
  next => exact ⟨rfl, hnow, hsince, hmoved, hrun, rfl⟩
  next => exact ⟨rfl, hnow, hsince, hmoved, hrun, rfl⟩

/-- What comes of some blocks, and of the same blocks in a run of the desk. -/
structure Ends (d : Desk) (since : Option Instant)
    (done : Except Failure Unit × Course (Register × Nat)) (taken : Option Failure × Run × Desk) :
    Prop where
  ended : raisedBy done.1 = taken.1
  follows : Follows d since done.2 taken.2.1 taken.2.2

theorem Follows.takeBlock (h : Follows d since s r e) (b : Block) (next : Option Block) :
    Ends d since ((d.services.takeBlock c d.simulates b next).outcome s)
      (Desk.takeBlock c (d.selector c) b next r e) := by
  have hread : Follows d since
      { s with world := d.services.elapse s.world, run := s.run.reading b next }
      (r.reading b next) e := ⟨h.now, h.since, h.moved, by rw [h.run], h.desk⟩
  obtain ⟨hheld, hrenewed⟩ := hread.renew
  unfold Services.takeBlock Desk.takeBlock
  rw [Working.outcome_update_bind, Working.outcome_bind]
  generalize Working.renew.outcome _ = done at hheld hrenewed ⊢
  generalize e.lease.renew e.now e.leases = renewed at hheld hrenewed ⊢
  obtain ⟨held', t⟩ := done
  obtain ⟨held, lease, leases⟩ := renewed
  cases held with
  | error f =>
    obtain rfl : held' = .error f := hheld
    exact ⟨rfl, hrenewed⟩
  | ok holds =>
    obtain rfl : held' = .ok () := hheld
    obtain ⟨hwinners, hjudged⟩ := hrenewed.judge (c := c) b
    dsimp only at hwinners hjudged ⊢
    rw [Working.outcome_bind]
    generalize (d.services.judge c b).outcome t = done at hwinners hjudged ⊢
    obtain ⟨winners, u⟩ := done
    obtain rfl : winners = _ := hwinners
    cases hflush : ((d.selector c).flush b.unit b.samples e.timers).winners with
    | error f => exact ⟨rfl, hjudged⟩
    | ok cs =>
      refine ⟨rfl, ?_⟩
      have hgiven : Follows d since
          { u with run.given := (Selector.giveOut u.run.given none cs).2.1 }
          { u.run with given := (Selector.giveOut u.run.given none cs).2.1 }
          { e with
            lease, leases
            timers := ((d.selector c).flush b.unit b.samples e.timers).timers } :=
        ⟨hjudged.now, hjudged.since, hjudged.moved, rfl, hjudged.desk⟩
      dsimp only
      rw [← hjudged.run]
      exact hgiven.winners (Selector.giveOut u.run.given none cs).1

theorem Follows.takeBlocks (h : Follows d since s r e) (bs : List (Block × Option Block)) :
    Ends d since ((d.services.takeBlocks c d.simulates bs).outcome s)
      (Desk.takeBlocks c (d.selector c) bs r e) := by
  induction bs generalizing s r e with
  | nil => exact ⟨rfl, h.now, h.since, h.moved,
      congrArg (fun r : Run => { r with ended := true }) h.run, h.desk⟩
  | cons entry rest ih =>
    obtain ⟨b, next⟩ := entry
    obtain ⟨hended, hblock⟩ := h.takeBlock (c := c) b next
    unfold Services.takeBlocks Desk.takeBlocks
    rw [Working.outcome_bind]
    generalize (d.services.takeBlock c d.simulates b next).outcome s = done at hended hblock ⊢
    generalize Desk.takeBlock c (d.selector c) b next r e = taken at hended hblock ⊢
    obtain ⟨failure, r', e'⟩ := taken
    obtain ⟨ended, t⟩ := done
    obtain rfl : raisedBy ended = failure := hended
    cases ended with
    | error f => exact ⟨rfl, hblock⟩
    | ok u => exact ih hblock

/-! ## The work of a run -/

/-- What the work of a run over the services has come to, and what it comes to in a run of the desk:
they report the same and leave the same, but for the records of the rows that have been read. -/
structure Works (d : Desk) (done : Except Failure Unit × Course (Register × Nat))
    (worked : RunReport × Desk) : Prop where
  now : done.2.world.now = d.now
  report : worked.1 = { RunReport.start d.now with
    counts := done.2.run.handled.counts
    error := (raisedBy done.1).map Failure.message
    since := done.2.since
    checkpoint := done.2.moved }
  desk : ∃ raw : List AuditRecord, (∀ x ∈ raw, x.kind = .raw "unified") ∧
    worked.2 = { d.during done.2 with audit := d.audit ++ done.2.run.handled.audit ++ raw }

/-- A run that a failure has stopped. -/
theorem Follows.stopped (h : Follows d since s r e) (f : Failure) {raw : List AuditRecord}
    (hraw : ∀ x ∈ raw, x.kind = .raw "unified") :
    Works d (.error f, s)
      ({ RunReport.start d.now with counts := r.handled.counts, error := some f.message, since },
        { e with audit := d.audit ++ r.handled.audit ++ raw }) := by
  obtain ⟨hnow, rfl, hmoved, rfl, rfl⟩ := h
  refine ⟨hnow, ?_, raw, hraw, rfl⟩
  rw [hmoved]
  rfl

/-- A run that a failure has stopped before its first block. -/
theorem Follows.stopped_early (h : Follows d since s .start e) (f : Failure) :
    Works d (.error f, s) ({ RunReport.start d.now with error := some f.message, since }, e) := by
  obtain ⟨hnow, rfl, hmoved, hrun, rfl⟩ := h
  have haudit : d.audit ++ Run.start.handled.audit ++ [] = d.audit := by
    simp [Run.start, Handled.none]
  refine ⟨hnow, ?_, [], by simp, ?_⟩
  · dsimp only
    rw [hrun, hmoved]
    rfl
  · dsimp only
    rw [hrun, haudit]
    rfl

/-- Where nothing has stopped the run the checkpoint is moved by both. -/
theorem Follows.conclude (h : Follows d since s r e) {raw : List AuditRecord}
    (hraw : ∀ x ∈ raw, x.kind = .raw "unified") :
    Works d (d.services.conclude.outcome s)
      (Desk.conclude { e with audit := d.audit ++ r.handled.audit ++ raw } r none
        { RunReport.start d.now with since }) := by
  obtain ⟨hnow, rfl, hmoved, rfl, rfl⟩ := h
  unfold Services.conclude Desk.conclude
  rw [Working.outcome_inspect_bind]
  cases s.run.latest with
  | none =>
    refine ⟨hnow, ?_, raw, hraw, rfl⟩
    change _ = RunReport.mk _ _ _ _ _ _ s.moved
    rw [hmoved]
    rfl
  | some latest =>
    have hmove : d.services.move latest s.world =
        ((Checkpoint.set s.world.rest.1 d.runKey (.utc latest) d.now).1.map fun _ => (),
          { s.world with rest :=
            ((Checkpoint.set s.world.rest.1 d.runKey (.utc latest) d.now).2, s.world.rest.2) }) := by
      rw [← hnow]
      rfl
    have hset (audit : List AuditRecord) : Checkpoint.set (d.during s).register
        ({ d.during s with audit } : Desk).runKey (.utc latest) (d.during s).now =
        Checkpoint.set s.world.rest.1 d.runKey (.utc latest) d.now := rfl
    dsimp only
    rw [Working.outcome_ask_bind, hmove, hset]
    rcases Checkpoint.set s.world.rest.1 d.runKey (.utc latest) d.now with ⟨moved, register⟩
    cases moved with
    | error f =>
      refine ⟨hnow, ?_, raw, hraw, rfl⟩
      change _ = RunReport.mk _ _ _ _ _ _ s.moved
      rw [hmoved]
      rfl
    | ok u => exact ⟨hnow, rfl, raw, hraw, rfl⟩

theorem kind_of_mem_rowRecords {rows : List (Row × List Sample)} {broken : Option Row}
    {x : AuditRecord} (h : x ∈ rowRecords r rows broken) : x.kind = .raw "unified" := by
  obtain ⟨row, -, rfl⟩ := List.mem_map.mp h
  rfl

/-- The blocks are taken, the stream is read to its end, and the checkpoint is moved. -/
theorem Follows.finish (h : Follows d since s .start e) (rows : List (Row × List Sample))
    (broken : Option (Row × Failure)) (bs : List (Block × Option Block)) :
    Works d
      (((d.services.takeBlocks c d.simulates bs >>= fun _ =>
        Working.close (broken.map (·.2))) >>= fun _ => d.services.conclude).outcome s)
      (concluding rows broken { RunReport.start d.now with since }
        (Desk.takeBlocks c (d.selector c) bs .start e)) := by
  obtain ⟨hended, hblocks⟩ := h.takeBlocks (c := c) bs
  rw [Working.outcome_bind, Working.outcome_bind]
  generalize (d.services.takeBlocks c d.simulates bs).outcome s = done at hended hblocks ⊢
  generalize Desk.takeBlocks c (d.selector c) bs .start e = taken at hended hblocks ⊢
  obtain ⟨failure, r, e'⟩ := taken
  obtain ⟨ended, t⟩ := done
  obtain rfl : raisedBy ended = failure := hended
  have hblocks : Follows d since t r e' := hblocks
  have haudit : e'.audit = d.audit := by
    rw [hblocks.desk]
    rfl
  have hraw : ∀ x ∈ (if e'.development then rowRecords r rows (broken.map (·.1)) else []),
      x.kind = .raw "unified" := by
    intro x hx
    split at hx
    next => exact kind_of_mem_rowRecords hx
    next => cases hx
  unfold concluding
  dsimp only
  rw [haudit]
  cases ended with
  | error f => exact hblocks.stopped f hraw
  | ok u =>
    cases broken with
    | none => exact hblocks.conclude hraw
    | some broken =>
      have hclosed : Follows d since (t.noted .reading (some broken.2)) r e' :=
        ⟨hblocks.now, hblocks.since, hblocks.moved, hblocks.run, hblocks.desk⟩
      exact hclosed.stopped broken.2 hraw

theorem computed_services {w : World (Register × Nat)} (hnow : w.now = d.now) (c : Config) :
    (d.services.communication c w).1.toOption.getD [] ++
        (d.services.power c w).1.toOption.getD [] = d.computedSamples (.ofConfig c) := by
  unfold services computedSamples
  dsimp only
  rw [hnow]
  cases d.fromPart .communication ((SourceReader.ofConfig c).communication d.readings d.now) <;>
    cases d.fromPart .power ((SourceReader.ofConfig c).power d.readings d.now) <;> rfl

theorem rules_services (d : Desk) (w : World (Register × Nat)) :
    d.services.rules w = (d.rules.mapError fun f => .stopped (f.message d.rulesPath), w) := rfl

theorem checkpoint_services (d : Desk) (w : World (Register × Nat)) :
    d.services.checkpoint w = (Checkpoint.get w.rest.1 d.runKey d.lookback w.now, w) := rfl

theorem stream_services (d : Desk) (c : Config) (since : Instant) (w : World (Register × Nat)) :
    d.services.stream c since w = ((d.stream (.ofConfig c) since).map fun (rows, broken) =>
      (rows.flatMap (·.2), broken.map (·.2)), w) := rfl

/-- The work of both after the rules have been read. -/
theorem Follows.work (h : Follows d none s .start e) (hrules : d.rules = .ok c) :
    Works d ((d.services.work d.simulates).outcome s) (e.work c (.start d.now)) := by
  have hopened : d.services.source c = fun w => (.ok (), w) := rfl
  have hkept : d.services.store c = fun w => (.ok (), w) := rfl
  have hget : Checkpoint.get e.register e.runKey e.lookback e.now =
      Checkpoint.get s.world.rest.1 d.runKey d.lookback s.world.now := by
    rw [h.desk, h.now]
    rfl
  have hstream (since : Instant) :
      e.stream (.ofConfig c) since = d.stream (.ofConfig c) since := by
    rw [h.desk]
    rfl
  unfold Services.work Services.gather
  rw [Working.outcome_bind, Working.outcome_ask_bind, rules_services, hrules]
  dsimp only [Except.mapError]
  -- for a desk nothing happens when the source and the store are opened
  rw [Working.outcome_ask_bind, hopened]
  dsimp only
  rw [Working.outcome_ask_bind, hkept]
  dsimp only
  rw [Working.outcome_ask_bind, checkpoint_services]
  dsimp only [Course.noted]
  rw [← hget]
  cases hsince : Checkpoint.get e.register e.runKey e.lookback e.now with
  | error f =>
    rw [(work_of_get_error hsince).1]
    refine Follows.stopped_early ?_ f
    exact ⟨h.now, h.since, h.moved, h.run, h.desk⟩
  | ok since =>
    dsimp only
    rw [Working.outcome_update_bind, Working.outcome_attempt_bind, Working.outcome_attempt_bind,
      Working.outcome_ask_bind, stream_services, ← hstream]
    cases hread : e.stream (.ofConfig c) since with
    | error f =>
      rw [(work_of_stream_error hsince hread).1]
      refine Follows.stopped_early ?_ f
      exact ⟨h.now, rfl, h.moved, h.run, h.desk⟩
    | ok read =>
      obtain ⟨rows, broken⟩ := read
      have hselector : e.selector c = d.selector c := by
        rw [h.desk]
        rfl
      have hcomputed : e.computedSamples (.ofConfig c) =
          (d.services.communication c s.world).1.toOption.getD [] ++
            (d.services.power c s.world).1.toOption.getD [] := by
        rw [computed_services h.now c, h.desk]
        rfl
      rw [work_eq_concluding hsince hread, hselector, hcomputed]
      dsimp only [Except.map]
      rw [Option.isSome_map, ← Working.outcome_bind]
      refine Follows.finish ?_ rows broken _
      exact ⟨h.now, rfl, h.moved, h.run, h.desk⟩

/-! ## Runs -/

/-- The desk when a run over its services has left this, and these records of rows have been
written. -/
def leftBy (d : Desk) (j : Job (Register × Nat)) (raw : List AuditRecord) : Desk :=
  { d with
    register := j.world.rest.1, refusals := j.world.rest.2, leases := j.world.leases
    lease := j.lease, timers := j.timers, audit := j.audit ++ raw, last := j.last }

/-- What the work of a run that holds the lease comes to. -/
def worked (d : Desk) : RunReport × Desk :=
  match d.rules with
  | .error f => ({ RunReport.start d.now with error := some (f.message d.rulesPath) }, d.holding)
  | .ok c => d.holding.work c (.start d.now)

theorem run_eq_worked (h : (d.lease.acquire (freshOwner d.leases) d.now d.leases).1 = .ok true) :
    d.run = d.worked.2.finishing (freshOwner d.leases) d.worked.1 := by
  rw [run_eq_finishing h]
  unfold worked
  cases d.rules with
  | error f => rfl
  | ok c => rfl

theorem works_job (d : Desk) :
    Works d (d.job.work d.services (freshOwner d.leases)) d.worked := by
  have hstart : Follows d none (d.job.start (freshOwner d.leases)) .start d.holding :=
    ⟨rfl, rfl, rfl, rfl, rfl⟩
  have hsimulates : d.job.simulates = d.simulates := rfl
  unfold Job.work worked
  rw [hsimulates]
  cases hrules : d.rules with
  | ok c => exact hstart.work hrules
  | error f =>
    unfold Services.work Services.gather
    rw [Working.outcome_bind, Working.outcome_ask_bind, rules_services, hrules]
    refine Follows.stopped_early ?_ (.stopped (f.message d.rulesPath))
    exact ⟨rfl, rfl, rfl, rfl, rfl⟩

/-- A run of a desk is a run over its services. -/
theorem run_eq_job (d : Desk) :
    ∃ raw : List AuditRecord, (∀ x ∈ raw, x.kind = .raw "unified") ∧
      d.run = ((d.job.run d.services (freshOwner d.leases)).1,
        d.leftBy (d.job.run d.services (freshOwner d.leases)).2.2 raw) := by
  have hacquire : d.job.lease.acquire (freshOwner d.leases) d.job.world.now d.job.world.leases =
      d.lease.acquire (freshOwner d.leases) d.now d.leases := rfl
  unfold Job.run
  rw [hacquire]
  by_cases hheld : (d.lease.acquire (freshOwner d.leases) d.now d.leases).1 = .ok true
  · obtain ⟨hnow, hreport, raw, hraw, hdesk⟩ := d.works_job
    refine ⟨raw, hraw, ?_⟩
    rw [run_eq_worked hheld, hreport, hdesk]
    generalize d.lease.acquire (freshOwner d.leases) d.now d.leases = got at hheld ⊢
    obtain ⟨held, lease, leases⟩ := got
    obtain rfl : held = .ok true := hheld
    generalize d.job.work d.services (freshOwner d.leases) = done at hnow
    obtain ⟨ended, s⟩ := done
    have hrelease : (d.during s).lease.release (freshOwner d.leases) (d.during s).leases =
        s.lease.release (freshOwner d.leases) s.world.leases := rfl
    unfold finishing
    dsimp only at hnow ⊢
    rw [hrelease]
    rcases s.lease.release (freshOwner d.leases) s.world.leases with ⟨released, lease, leases⟩
    cases released with
    | error f => rfl
    | ok u =>
      dsimp only
      rw [hnow]
      rfl
  · refine ⟨[], by simp, ?_⟩
    unfold Desk.run
    dsimp only
    generalize d.lease.acquire (freshOwner d.leases) d.now d.leases = got at hheld ⊢
    obtain ⟨held, lease, leases⟩ := got
    have hidle : d.job.audit ++ [] = d.audit := List.append_nil _
    match held with
    | .ok true => exact absurd rfl hheld
    | .ok false =>
      unfold leftBy
      dsimp only
      rw [hidle]
      rfl
    | .error f =>
      unfold leftBy
      dsimp only
      rw [hidle]
      rfl

/-- The accounts of a run of a desk: all faults it has found are counted once, and each that was
stopped has its audit record. -/
theorem counts_of_run {report : RunReport} (h : d.run.1 = .ok report) :
    report.counts.candidates =
        report.counts.processed + report.counts.duplicates + report.counts.errors ∧
      report.counts.batchSuppressed = 0 ∧
      ∃ audit, d.run.2.audit = d.audit ++ audit ∧
        (audit.filter (·.kind == .skipped)).length = report.counts.duplicates := by
  obtain ⟨raw, hraw, hrun⟩ := d.run_eq_job
  rcases hjob : d.job.run d.services (freshOwner d.leases) with ⟨ended, calls, after⟩
  rw [hjob] at hrun
  rw [hrun] at h ⊢
  obtain rfl : ended = .ok report := h
  obtain ⟨handled, hb, hcounts, haudit⟩ := Job.balanced_run hjob
  obtain ⟨stopped, hlength, -, hwritten⟩ := hb.written
  have hnone : raw.filter (·.kind == .skipped) = [] := by
    refine List.filter_eq_nil_iff.mpr fun x hx => ?_
    rw [hraw x hx]
    decide
  rw [hcounts]
  refine ⟨hb.total, hb.once, handled.audit ++ raw, ?_, ?_⟩
  · rw [← List.append_assoc]
    exact congrArg (· ++ raw) haudit
  · rw [List.filter_append, hnone, List.append_nil, hwritten, List.length_map, hlength]

end Desk

end FaultDesk
