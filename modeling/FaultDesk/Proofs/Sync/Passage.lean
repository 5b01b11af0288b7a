import FaultDesk.Proofs.Lease.Calls
import FaultDesk.Proofs.Register.Checkpoint
import FaultDesk.Proofs.Selection.Completion
import FaultDesk.Proofs.Sync.History

/-!
What a run leaves behind. A run that goes through has taken every sample of its stream and moves the
checkpoint to the latest of them; one that does not leaves the checkpoint where it was. Neither
touches the readings.
-/

namespace FaultDesk

namespace Lease

variable {l : Lease} {o : String} {now : Instant} {t : LeaseTable}

theorem access_of_granted (h : (l.acquire o now t).1 = .ok true) : t.access = .ok () := by
  simp only [acquire, claim] at h
  split at h
  next => cases h
  next =>
    cases ha : t.access with
    | error e =>
      simp only [ha] at h
      split at h <;> cases h
    | ok u => rfl

theorem access_acquire (l : Lease) (o : String) (now : Instant) (t : LeaseTable) :
    (l.acquire o now t).2.2.access = t.access := by
  by_cases h : (l.acquire o now t).1 = .ok true
  · obtain ⟨-, e, -, htaken⟩ := acquire_granted h
    rw [htaken]
    rfl
  · obtain ⟨locked, hkept⟩ := acquire_refused h
    rw [hkept]

end Lease

theorem Register.enter_settings (r : Register) (k : Clerk) (now : Instant) (w : Candidate) :
    (r.enter k now w).2.settings = r.settings := by
  rcases r.enter_cases k now w with ⟨f, h⟩ | ⟨draft, e, -, h⟩
  · rw [h]
  · rw [h]
    rfl

/-- Whether a desk has the readings, the settings and the clock of another, and as much access to the
database. -/
structure Desk.Alike (d d' : Desk) : Prop where
  now : d'.now = d.now
  rules : d'.rules = d.rules
  readings : d'.readings = d.readings
  settings : d'.register.settings = d.register.settings
  down : d'.register.down = d.register.down
  lending : d'.leases.access = d.leases.access

namespace Desk

variable {c : Config} {d d' d'' : Desk}

theorem Alike.refl (d : Desk) : Alike d d := ⟨rfl, rfl, rfl, rfl, rfl, rfl⟩

theorem Alike.trans (h : Alike d d') (h' : Alike d' d'') : Alike d d'' :=
  ⟨h'.now.trans h.now, h'.rules.trans h.rules, h'.readings.trans h.readings,
    h'.settings.trans h.settings, h'.down.trans h.down, h'.lending.trans h.lending⟩

theorem Alike.access (h : Alike d d') : d'.register.access = d.register.access := by
  unfold Register.access
  rw [h.down]

theorem Alike.runKey (h : Alike d d') : d'.runKey = d.runKey := by
  unfold Desk.runKey clientId
  rw [h.readings]

/-! ## Handling a stream -/

theorem alike_enter (mapping : ComplaintMapping) (d : Desk) (w : Candidate) :
    Alike d ((book mapping).enter d w).2 := by
  have hsettings (k : Clerk) := d.register.enter_settings k d.now w
  have hdown (k : Clerk) := d.register.enter_down k d.now w
  unfold book
  dsimp only
  split
  next =>
    split
    all_goals
      next he =>
        refine ⟨rfl, rfl, rfl, ?_, ?_, rfl⟩
        · rw [← hsettings ⟨mapping, d.clientId, d.submittedBy⟩, he]
        · rw [← hdown ⟨mapping, d.clientId, d.submittedBy⟩, he]
  next => exact ⟨rfl, rfl, rfl, rfl, rfl, rfl⟩

theorem alike_takeWinner (state : Run × Desk) (w : Candidate) :
    Alike state.2 (takeWinner c state w).2 ∧
      (takeWinner c state w).1.latest = state.1.latest ∧
      (takeWinner c state w).1.begun = state.1.begun ∧
      (takeWinner c state w).1.reads = state.1.reads := by
  obtain ⟨r, d⟩ := state
  refine ⟨?_, rfl, rfl, rfl⟩
  unfold takeWinner
  dsimp only
  rcases Handled.take_cases (book c.complaints) (closedSet c.closedStatuses) d.simulates w
      { r.handled with counts.candidates := r.handled.counts.candidates + 1 } d with
    hsame | ⟨-, -, hentered⟩
  · rw [hsame]
    exact .refl d
  · rw [hentered]
    exact alike_enter c.complaints d w

theorem alike_winners (state : Run × Desk) (ws : List Candidate) :
    Alike state.2 (ws.foldl (takeWinner c) state).2 ∧
      (ws.foldl (takeWinner c) state).1.latest = state.1.latest ∧
      (ws.foldl (takeWinner c) state).1.begun = state.1.begun ∧
      (ws.foldl (takeWinner c) state).1.reads = state.1.reads := by
  induction ws generalizing state with
  | nil => exact ⟨.refl _, rfl, rfl, rfl⟩
  | cons w rest ih =>
    obtain ⟨halike, hlatest, hbegun, hreads⟩ := @alike_takeWinner c state w
    obtain ⟨halike', hlatest', hbegun', hreads'⟩ := ih (takeWinner c state w)
    exact ⟨halike.trans halike', hlatest'.trans hlatest, hbegun'.trans hbegun,
      hreads'.trans hreads⟩

variable {sel : Selector} {r : Run}

/-- A block is taken after its samples have been read. -/
theorem alike_takeBlock (b : Block) (next : Option Block) (r : Run) (d : Desk) :
    Alike d (takeBlock c sel b next r d).2.2 ∧
      (takeBlock c sel b next r d).2.1.latest = (r.reading b next).latest ∧
      (takeBlock c sel b next r d).2.1.begun = (r.reading b next).begun ∧
      (takeBlock c sel b next r d).2.1.reads = (r.reading b next).reads := by
  have hlending := (d.lease.renew_does d.now d.leases).access_eq
  unfold takeBlock
  dsimp only
  split
  next hrenew =>
    rw [hrenew] at hlending
    exact ⟨⟨rfl, rfl, rfl, rfl, rfl, hlending⟩, rfl, rfl, rfl⟩
  next lease leases hrenew =>
    rw [hrenew] at hlending
    split
    next => exact ⟨⟨rfl, rfl, rfl, rfl, rfl, hlending⟩, rfl, rfl, rfl⟩
    next cs _ =>
      generalize Selector.giveOut _ none cs = out
      obtain ⟨ws, given, wanted⟩ := out
      obtain ⟨halike, hlatest, hbegun, hreads⟩ := @alike_winners c ({ r.reading b next with given },
        { d with lease, leases, timers := (sel.flush b.unit b.samples d.timers).timers }) ws
      have hflushed : Alike d { d with
          lease, leases, timers := (sel.flush b.unit b.samples d.timers).timers } :=
        ⟨rfl, rfl, rfl, rfl, rfl, hlending⟩
      exact ⟨hflushed.trans halike, hlatest, hbegun, hreads⟩

/-- The samples that are taken on the way through blocks. -/
def takenFrom (begun : Bool) (bs : List Block) : List Sample :=
  (stepsFrom (if begun then 1 else 0) bs).filterMap SelectionStep.taken?

theorem takenFrom_cons (begun : Bool) (b : Block) (rest : List Block) :
    takenFrom begun (b :: rest) =
      Selector.readsFor begun b rest.head? ++ takenFrom (!b.streamed.isEmpty) rest := by
  have htake (ss : List Sample) : (ss.map SelectionStep.take).filterMap SelectionStep.taken? = ss := by
    simp [SelectionStep.taken?, List.filterMap_map, Function.comp_def]
  unfold takenFrom
  rw [stepsFrom, List.filterMap_append, htake, List.filterMap_cons_none rfl]
  cases hb : b.streamed.isEmpty <;> rfl

theorem takenFrom_blocks (stream extra : List Sample) :
    takenFrom false (blocks stream extra) = stream := by
  have htaken := taken_selectionSteps stream extra
  rw [selectionSteps_eq] at htaken
  exact htaken

theorem alike_takeBlocks (bs : List (Block × Option Block)) (r : Run) (d : Desk) :
    Alike d (takeBlocks c sel bs r d).2.2 := by
  induction bs generalizing r d with
  | nil => exact .refl d
  | cons b rest ih =>
    obtain ⟨b, next⟩ := b
    have hblock := (@alike_takeBlock c sel b next r d).1
    unfold takeBlocks
    split
    next he => rw [he] at hblock; exact hblock
    next he => rw [he] at hblock; exact hblock.trans (ih _ _)

theorem latest_append (before : Option Instant) (ss more : List Sample) :
    SelectionEvent.latest before ((ss ++ more).map .read) =
      SelectionEvent.latest (SelectionEvent.latest before (ss.map .read)) (more.map .read) := by
  simp [SelectionEvent.latest, SelectionEvent.read?, List.filterMap_map, Function.comp_def]

/-- Blocks that are taken to the end have been read completely. -/
theorem takeBlocks_taken (bs : List Block) (r : Run) (d : Desk)
    (h : (takeBlocks c sel (followed bs) r d).1 = none) :
    (takeBlocks c sel (followed bs) r d).2.1.latest =
        SelectionEvent.latest r.latest ((takenFrom r.begun bs).map .read) ∧
      (takeBlocks c sel (followed bs) r d).2.1.reads = r.reads + (takenFrom r.begun bs).length := by
  induction bs generalizing r d with
  | nil => exact ⟨rfl, rfl⟩
  | cons b rest ih =>
    obtain ⟨-, hlatest, hbegun, hreads⟩ := @alike_takeBlock c sel b rest.head? r d
    unfold followed takeBlocks at h ⊢
    split at h
    next => cases h
    next r' d' he =>
      rw [he] at hlatest hbegun hreads
      dsimp only at hlatest hbegun hreads h ⊢
      obtain ⟨hlatest', hreads'⟩ := ih r' d' h
      have hbegun' : r'.begun = !b.streamed.isEmpty := hbegun
      rw [hlatest', hreads', hlatest, hreads, hbegun', takenFrom_cons, latest_append,
        List.length_append]
      exact ⟨rfl, by simp [Run.reading, Nat.add_assoc]⟩

/-! ## A whole run -/

theorem Alike.settings_set (h : Alike d d') (s : Stamp) :
    (Checkpoint.set d'.register d'.runKey s d'.now).2.settings =
        (Checkpoint.set d.register d.runKey s d.now).2.settings ∧
      (Checkpoint.set d'.register d'.runKey s d'.now).2.down =
        (Checkpoint.set d.register d.runKey s d.now).2.down := by
  unfold Checkpoint.set
  rw [h.access, h.runKey, h.now]
  cases s.instant? with
  | none => exact ⟨h.settings, h.down⟩
  | some t =>
    cases d.register.access with
    | error f => exact ⟨h.settings, h.down⟩
    | ok u => exact ⟨by simp only [h.settings], h.down⟩

/-- The desk when its checkpoint has been moved to a time, if there is one. -/
def movedTo (d : Desk) (latest : Option Instant) : Desk :=
  match latest with
  | none => d
  | some t => { d with register := (Checkpoint.set d.register d.runKey (.utc t) d.now).2 }

theorem Alike.movedTo (h : Alike d d') (latest : Option Instant) :
    Alike (d.movedTo latest) (d'.movedTo latest) := by
  cases latest with
  | none => exact h
  | some t =>
    obtain ⟨hsettings, hdown⟩ := h.settings_set (.utc t)
    exact ⟨h.now, h.rules, h.readings, hsettings, hdown, h.lending⟩

theorem movedTo_frame (d : Desk) (latest : Option Instant) :
    (d.movedTo latest).readings = d.readings ∧ (d.movedTo latest).now = d.now ∧
      (d.movedTo latest).leases = d.leases := by
  cases latest <;> exact ⟨rfl, rfl, rfl⟩

/-- A run is concluded with a failure that leaves the settings alone, or the checkpoint is moved. -/
theorem conclude_cases (d : Desk) (r : Run) (failure : Option Failure) {report : RunReport}
    (hreport : report.error = none) :
    ((d.conclude r failure report).1.error ≠ none ∧ Alike d (d.conclude r failure report).2) ∨
      failure = none ∧ (d.conclude r failure report).1.error = none ∧
        (d.conclude r failure report).1.skipped = report.skipped ∧
        (d.conclude r failure report).1.since = report.since ∧
        (d.conclude r failure report).2 = d.movedTo r.latest := by
  unfold conclude
  dsimp only
  cases failure with
  | some f => exact Or.inl ⟨by simp, .refl d⟩
  | none =>
    cases r.latest with
    | none => exact Or.inr ⟨rfl, hreport, rfl, rfl, rfl⟩
    | some latest =>
      have hmoved : d.movedTo (some latest) =
          { d with register := (Checkpoint.set d.register d.runKey (.utc latest) d.now).2 } := rfl
      rw [hmoved]
      dsimp only
      rcases hset : Checkpoint.set d.register d.runKey (.utc latest) d.now with ⟨set, register⟩
      cases set with
      | ok u => exact Or.inr ⟨rfl, hreport, rfl, rfl, rfl⟩
      | error f =>
        have hsame := Checkpoint.register_of_set_error (congrArg Prod.fst hset)
        rw [hset] at hsame
        obtain rfl : register = d.register := hsame
        exact Or.inl ⟨by simp, .refl d⟩

/-- The latest of some samples. -/
def latestOf (ss : List Sample) : Option Instant := (ss.map (·.time)).max?

/-- The work of a run fails and leaves the settings alone, or it moves the checkpoint to the latest
sample of its stream. -/
theorem work_cases (d : Desk) (c : Config) {report : RunReport} (hreport : report.error = none) :
    ((d.work c report).1.error ≠ none ∧ Alike d (d.work c report).2) ∨
      ∃ since rows, Checkpoint.get d.register d.runKey d.lookback d.now = .ok since ∧
        d.stream (.ofConfig c) since = .ok (rows, none) ∧ (d.work c report).1.error = none ∧
        (d.work c report).1.skipped = report.skipped ∧ (d.work c report).1.since = some since ∧
        Alike (d.movedTo (latestOf (rows.flatMap (·.2)))) (d.work c report).2 := by
  unfold Desk.work
  dsimp only
  split
  next => exact Or.inl ⟨by simp, .refl d⟩
  next since hsince =>
    split
    next => exact Or.inl ⟨by simp, .refl d⟩
    next rows broken hrows =>
      have halike := @alike_takeBlocks c (d.selector c)
        (completed (rows.flatMap (·.2)) (d.computedSamples (.ofConfig c)) broken.isSome) .start d
      have htaken := @takeBlocks_taken c (d.selector c)
        (blocks (rows.flatMap (·.2)) (d.computedSamples (.ofConfig c))) .start d
      have hwhole (hnone : broken = none) :
          completed (rows.flatMap (·.2)) (d.computedSamples (.ofConfig c)) broken.isSome =
            followed (blocks (rows.flatMap (·.2)) (d.computedSamples (.ofConfig c))) := by
        rw [hnone]
        rfl
      generalize hresult : takeBlocks c (d.selector c) _ .start d = result at halike ⊢
      obtain ⟨failure, r, d'⟩ := result
      dsimp only
      generalize d'.audit ++ r.handled.audit ++ _ = audit
      have hhandled : Alike d { d' with audit } :=
        ⟨halike.now, halike.rules, halike.readings, halike.settings, halike.down, halike.lending⟩
      rcases @conclude_cases { d' with audit } r (failure.or (broken.map (·.2)))
          { report with since := some since } hreport with
        ⟨herror, hsame⟩ | ⟨hnone, herror, hskipped, hreported, hmoved⟩
      · exact Or.inl ⟨herror, hhandled.trans hsame⟩
      · obtain ⟨rfl, hbroken⟩ := Option.or_eq_none_iff.mp hnone
        obtain rfl : broken = none := Option.map_eq_none_iff.mp hbroken
        rw [hwhole rfl] at hresult
        rw [hresult] at htaken
        have hlatest : r.latest = latestOf (rows.flatMap (·.2)) := by
          have htaken' := (htaken rfl).1
          rw [show Run.start.begun = false from rfl, takenFrom_blocks,
            show Run.start.latest = none from rfl, SelectionEvent.latest_eq_max?] at htaken'
          simpa [latestOf, List.filterMap_map, Function.comp_def, SelectionEvent.read?] using htaken'
        refine Or.inr ⟨since, rows, hsince, hrows, herror, hskipped, hreported, ?_⟩
        rw [hmoved, hlatest]
        exact hhandled.movedTo _

/-- A desk that holds the lease. -/
def holding (d : Desk) : Desk :=
  { d with
    lease := (d.lease.acquire (freshOwner d.leases) d.now d.leases).2.1
    leases := (d.lease.acquire (freshOwner d.leases) d.now d.leases).2.2 }

theorem alike_holding (d : Desk) : Alike d d.holding :=
  ⟨rfl, rfl, rfl, rfl, rfl, Lease.access_acquire ..⟩

/-- The end of a run: the lease is given back. -/
def finishing (d : Desk) (owner : String) (report : RunReport) : Except Failure RunReport × Desk :=
  match d.lease.release owner d.leases with
  | (.error f, lease, leases) => (.error f, { d with lease, leases })
  | (.ok _, lease, leases) =>
    let report := { report with finished := some d.now }
    (.ok report, { d with lease, leases, last := some report })

theorem finishing_ok (owner : String) (report : RunReport) (h : d.leases.access = .ok ()) :
    ∃ lease, d.finishing owner report =
      (.ok { report with finished := some d.now },
        { d with lease, leases := d.lease.relinquish owner d.leases,
                 last := some { report with finished := some d.now } }) := by
  obtain ⟨lease, -, hrelease⟩ := d.lease.release_frees owner h
  unfold finishing
  rw [hrelease]
  exact ⟨lease, rfl⟩

theorem run_eq_finishing (h : (d.lease.acquire (freshOwner d.leases) d.now d.leases).1 = .ok true) :
    d.run = match d.rules with
      | .error f => d.holding.finishing (freshOwner d.leases)
          { RunReport.start d.now with error := some (f.message d.rulesPath) }
      | .ok c => (d.holding.work c (.start d.now)).2.finishing (freshOwner d.leases)
          (d.holding.work c (.start d.now)).1 := by
  unfold Desk.run holding
  dsimp only
  rcases hacquire : d.lease.acquire (freshOwner d.leases) d.now d.leases with ⟨held, lease, leases⟩
  rw [hacquire] at h
  dsimp only at h ⊢
  subst h
  cases d.rules with
  | error f => rfl
  | ok c => rfl

theorem run_of_refused (h : (d.lease.acquire (freshOwner d.leases) d.now d.leases).1 ≠ .ok true) :
    (∀ report, d.run.1 = .ok report → report.skipped = true) ∧ d.run.2 = d.holding := by
  unfold Desk.run holding
  dsimp only
  rcases hacquire : d.lease.acquire (freshOwner d.leases) d.now d.leases with ⟨held, lease, leases⟩
  rw [hacquire] at h
  match held with
  | .error f =>
    refine ⟨fun report hreport => ?_, rfl⟩
    cases hreport
  | .ok false =>
    refine ⟨fun report hreport => ?_, rfl⟩
    rw [← Except.ok.inj hreport]
  | .ok true => exact absurd rfl h

/-- What a run streams: the rows after its checkpoint, each with its samples. A run that is skipped or
fails streams nothing. -/
def streamed (d : Desk) : Option (List (Row × List Sample)) := do
  let report ← d.run.1.toOption
  if report.skipped || report.error.isSome then none
  else
    let c ← d.rules.toOption
    let since ← report.since
    let (rows, _) ← (d.stream (.ofConfig c) since).toOption
    return rows

theorem streamed_of_failed (h : ∀ report, d.run.1 = .ok report → report.skipped = true ∨
    report.error ≠ none) : d.streamed = none := by
  unfold streamed
  cases hrun : d.run.1 with
  | error f => rfl
  | ok report =>
    rcases h report hrun with hskipped | herror
    · simp [Except.toOption, hskipped]
    · simp [Except.toOption, Option.isSome_iff_ne_none.mpr herror]

/-- A run streams nothing and leaves the settings alone, or it streams the rows after its checkpoint
and moves the checkpoint to their latest sample. -/
theorem run_cases (d : Desk) :
    (d.streamed = none ∧ Alike d d.run.2) ∨
      ∃ c since rows, d.rules = .ok c ∧
        Checkpoint.get d.register d.runKey d.lookback d.now = .ok since ∧
        d.stream (.ofConfig c) since = .ok (rows, none) ∧ d.streamed = some rows ∧
        Alike (d.movedTo (latestOf (rows.flatMap (·.2)))) d.run.2 := by
  by_cases hheld : (d.lease.acquire (freshOwner d.leases) d.now d.leases).1 = .ok true
  · have haccess := Lease.access_of_granted hheld
    have hholding := d.alike_holding
    have hrun := run_eq_finishing hheld
    have hfinished {d' : Desk} {report : RunReport} (haccess' : d'.leases.access = .ok ())
        (hrun : d.run = d'.finishing (freshOwner d.leases) report) :
        d.run.1 = .ok { report with finished := some d'.now } ∧ Alike d' d.run.2 := by
      obtain ⟨lease, hfinish⟩ := finishing_ok (freshOwner d.leases) report haccess'
      rw [hrun, hfinish]
      exact ⟨rfl, rfl, rfl, rfl, rfl, rfl, Lease.access_relinquish ..⟩
    cases hrules : d.rules with
    | error f =>
      rw [hrules] at hrun
      obtain ⟨hreport, hlike⟩ := hfinished (hholding.lending.trans haccess) hrun
      refine Or.inl ⟨streamed_of_failed fun report hreport' => Or.inr ?_, hholding.trans hlike⟩
      rw [hreport] at hreport'
      rw [← Except.ok.inj hreport']
      simp
    | ok c =>
      rw [hrules] at hrun
      dsimp only at hrun
      rcases @work_cases d.holding c (.start d.now) rfl with
        ⟨hfailed, hlike⟩ | ⟨since, rows, hsince, hrows, hnone, hskipped, hreported, hlike⟩
      · obtain ⟨hreport, hlike'⟩ := hfinished
          (hlike.lending.trans (hholding.lending.trans haccess)) hrun
        refine Or.inl ⟨streamed_of_failed fun report hreport' => Or.inr ?_,
          hholding.trans (hlike.trans hlike')⟩
        rw [hreport] at hreport'
        rw [← Except.ok.inj hreport']
        exact hfailed
      · have hmoved := hholding.movedTo (latestOf (rows.flatMap (·.2)))
        obtain ⟨hreport, hlike'⟩ := hfinished
          ((hmoved.trans hlike).lending.trans (by rw [(movedTo_frame ..).2.2, haccess])) hrun
        refine Or.inr ⟨c, since, rows, rfl, hsince, hrows, ?_, hmoved.trans (hlike.trans hlike')⟩
        have hstream : d.stream (.ofConfig c) since = .ok (rows, none) := hrows
        have hunskipped : (d.holding.work c (.start d.now)).1.skipped = false := hskipped
        simp [streamed, hreport, hrules, hunskipped, hnone, hreported, hstream, Except.toOption]
  · obtain ⟨hskipped, hsame⟩ := run_of_refused hheld
    refine Or.inl ⟨streamed_of_failed fun report hreport => Or.inl (hskipped report hreport), ?_⟩
    rw [hsame]
    exact d.alike_holding

/-- A run does not touch the readings or the clock. -/
theorem run_readings (d : Desk) : d.run.2.readings = d.readings ∧ d.run.2.now = d.now := by
  rcases d.run_cases with ⟨-, halike⟩ | ⟨c, since, rows, -, -, -, -, halike⟩
  · exact ⟨halike.readings, halike.now⟩
  · obtain ⟨hreadings, hnow, -⟩ := d.movedTo_frame (latestOf (rows.flatMap (·.2)))
    exact ⟨halike.readings.trans hreadings, halike.now.trans hnow⟩

end Desk

end FaultDesk
