import FaultDesk.Proofs.Lease.Calls
import FaultDesk.Proofs.Sync.History
import FaultDesk.Sync.Job

/-!
What a run leaves of its control state. Wherever a run is stopped, it is the last call that has stopped
it; the lease is given back from there as from the end, and the checkpoint is moved by the last call
or not at all.
-/

namespace FaultDesk

/-- After some work more calls have been noted, none of which moves the checkpoint. -/
structure Notes {σ : Type} (s s' : Course σ) (more : List Called) : Prop where
  calls : s'.calls = s.calls ++ more
  name : s'.lease.name = s.lease.name
  still : ∀ x ∈ more, x.call.isMove = false

namespace Notes

variable {σ : Type} {s s' s'' : Course σ} {more more' : List Called}

theorem none (hcalls : s'.calls = s.calls) (hname : s'.lease.name = s.lease.name) :
    Notes s s' [] := ⟨by rw [hcalls, List.append_nil], hname, by simp⟩

theorem one {call : Call} {raised : Option Failure} (hcalls : s'.calls = s.calls ++ [⟨call, raised⟩])
    (hname : s'.lease.name = s.lease.name) (hstill : call.isMove = false) :
    Notes s s' [⟨call, raised⟩] := ⟨hcalls, hname, by simpa using hstill⟩

theorem trans (h : Notes s s' more) (h' : Notes s' s'' more') : Notes s s'' (more ++ more') := by
  refine ⟨?_, h'.name.trans h.name, ?_⟩
  · rw [h'.calls, h.calls, List.append_assoc]
  · intro x hx
    rcases List.mem_append.mp hx with hx | hx
    · exact h.still x hx
    · exact h'.still x hx

end Notes

/-- No call stops a run. -/
def Passed (calls : List Called) : Prop := ∀ x ∈ calls, x.stop? = none

theorem Passed.append {calls more : List Called} (h : Passed calls) (h' : Passed more) :
    Passed (calls ++ more) := fun x hx => (List.mem_append.mp hx).elim (h x) (h' x)

/-- The last call has stopped a run, and no other. -/
def StoppedBy (f : Failure) (calls : List Called) : Prop :=
  ∃ front x, calls = front ++ [x] ∧ Passed front ∧ x.stop? = some f

theorem StoppedBy.after {f : Failure} {calls more : List Called} (h : Passed calls)
    (h' : StoppedBy f more) : StoppedBy f (calls ++ more) := by
  obtain ⟨front, x, rfl, hfront, hx⟩ := h'
  exact ⟨calls ++ front, x, by rw [List.append_assoc], h.append hfront, hx⟩

/-- The calls tell what has come of some work. -/
def Tells {α : Type} (calls : List Called) : Except Failure α → Prop
  | .ok _ => Passed calls
  | .error f => StoppedBy f calls

namespace Tells

variable {α : Type} {calls : List Called} {result : Except Failure α} {x : Called} {f : Failure}

theorem raisedBy_of_passed (h : Tells calls result) (hpassed : Passed calls) :
    raisedBy result = none := by
  cases result with
  | ok a => rfl
  | error e =>
    obtain ⟨front, last, rfl, -, hlast⟩ := h
    rw [hpassed last (List.mem_append_right _ List.mem_cons_self)] at hlast
    cases hlast

theorem raisedBy_of_stop (h : Tells calls result) (hx : x ∈ calls) (hstop : x.stop? = some f) :
    raisedBy result = some f := by
  cases result with
  | ok a =>
    have hpassed : x.stop? = none := h x hx
    rw [hstop] at hpassed
    cases hpassed
  | error e =>
    obtain ⟨front, last, rfl, hfront, hlast⟩ := h
    rcases List.mem_append.mp hx with hx | hx
    · rw [hfront x hx] at hstop
      cases hstop
    · obtain rfl := List.mem_singleton.mp hx
      exact hlast.symm.trans hstop

end Tells

namespace Working

variable {σ α β : Type} {work : Working σ α} {f : α → Working σ β}

/-- Work that notes its calls and does not move the checkpoint. -/
def Noting (work : Working σ α) : Prop :=
  ∀ s, ∃ more, Notes s (work.outcome s).2 more ∧ Tells more (work.outcome s).1

theorem Noting.bind (hwork : work.Noting) (hf : ∀ a, (f a).Noting) : (work >>= f).Noting := by
  intro s
  obtain ⟨more, hnotes, htells⟩ := hwork s
  rw [outcome_bind]
  generalize work.outcome s = done at hnotes htells ⊢
  obtain ⟨result, t⟩ := done
  cases result with
  | error e => exact ⟨more, hnotes, htells⟩
  | ok a =>
    obtain ⟨more', hnotes', htells'⟩ := hf a t
    refine ⟨more ++ more', hnotes.trans hnotes', ?_⟩
    have hpassed : Passed more := htells
    dsimp only
    generalize (f a).outcome t = done' at htells' ⊢
    obtain ⟨result', t'⟩ := done'
    cases result' with
    | ok b => exact hpassed.append htells'
    | error e => exact .after hpassed htells'

theorem noting_update {f : Course σ → Course σ}
    (h : ∀ s, ∃ more, Notes s (f s) more ∧ Passed more) : (update f).Noting := h

/-- A change that makes no calls. -/
theorem noting_quiet {f : Course σ → Course σ}
    (h : ∀ s, (f s).calls = s.calls ∧ (f s).lease.name = s.lease.name) : (update f).Noting :=
  noting_update fun s => ⟨[], .none (h s).1 (h s).2, by simp [Passed]⟩

theorem tells_raised {call : Call} (hfatal : call.fatal = true) (result : Except Failure α) :
    Tells [⟨call, raisedBy result⟩] result := by
  cases result with
  | ok a => simp [Tells, Passed, Called.stop?, raisedBy]
  | error e => exact ⟨[], _, rfl, by simp [Passed], by simp [Called.stop?, hfatal, raisedBy]⟩

theorem passed_of_not_fatal {call : Call} (hfatal : call.fatal = false) (raised : Option Failure) :
    Passed [⟨call, raised⟩] := by
  simp [Passed, Called.stop?, hfatal]

theorem noting_ask {call : Call} (hfatal : call.fatal = true) (hstill : call.isMove = false)
    (service : Serving σ α) : (ask call service).Noting := by
  intro s
  exact ⟨[⟨call, raisedBy (service s.world).1⟩], .one rfl rfl hstill, tells_raised hfatal _⟩

theorem noting_attempt {call : Call} (hfatal : call.fatal = false) (hstill : call.isMove = false)
    (service : Serving σ (List Sample)) : (attempt call service).Noting := by
  intro s
  exact ⟨[⟨call, raisedBy (service s.world).1⟩], .one rfl rfl hstill, passed_of_not_fatal hfatal _⟩

theorem noting_renew : (renew : Working σ Unit).Noting := by
  intro s
  refine ⟨[⟨.renewal, raisedBy (s.lease.renew s.world.now s.world.leases).1⟩],
    .one rfl (Lease.renew_does ..).name_eq rfl, ?_⟩
  change Tells _ ((s.lease.renew s.world.now s.world.leases).1.map fun _ => ())
  generalize (s.lease.renew s.world.now s.world.leases).1 = held
  have htells : Tells [⟨.renewal, _⟩] _ := tells_raised rfl (held.map fun _ => ())
  cases held <;> exact htells

theorem noting_close (broken : Option Failure) : (close broken : Working σ Unit).Noting := by
  intro s
  cases broken with
  | none => exact ⟨[], .none rfl rfl, by simp [Tells, close, outcome, Passed]⟩
  | some f =>
    exact ⟨[⟨.reading, some f⟩], .one rfl rfl rfl, tells_raised rfl (.error f : Except Failure Unit)⟩

end Working

namespace Services

open Working

variable {σ : Type} (p : Services σ) (c : Config) (simulate : Bool)

theorem noting_judge (b : Block) : (p.judge c b).Noting := by
  intro s
  have hjudged : Tells [⟨.judging b.unit, _⟩] _ := tells_raised rfl
    ((p.selector c s.world).flush b.unit b.samples s.timers).winners
  have hpast : Passed [⟨.past b.unit, _⟩] := passed_of_not_fatal rfl
    (raisedBy (p.past c s.world b.unit))
  unfold judge outcome
  dsimp only
  cases ((p.selector c s.world).flush b.unit b.samples s.timers).asked with
  | false => exact ⟨_, .one rfl rfl rfl, hjudged⟩
  | true =>
    have hnoted : Notes s (s.noted (.past b.unit) (raisedBy (p.past c s.world b.unit))) _ :=
      .one rfl rfl rfl
    refine ⟨_, hnoted.trans (.one rfl rfl rfl), ?_⟩
    generalize ((p.selector c s.world).flush b.unit b.samples s.timers).winners = winners at hjudged ⊢
    cases winners with
    | ok cs => exact hpast.append hjudged
    | error e => exact .after hpast hjudged

theorem notes_settle (looked : Except Failure (Option Incident) × Course σ) (w : Candidate) :
    ∃ more, Notes looked.2 (p.settle c simulate looked w) more ∧ Passed more := by
  obtain ⟨found, s⟩ := looked
  unfold settle
  dsimp only
  rcases Handled.take_cases (p.book c found) (closedSet c.closedStatuses) simulate w
      { s.run.handled with counts.candidates := s.run.handled.counts.candidates + 1 } s with
    hsame | ⟨-, -, hentered⟩
  · rw [hsame]
    exact ⟨[], .none rfl rfl, by simp [Passed]⟩
  · rw [hentered]
    exact ⟨_, .one rfl rfl rfl, passed_of_not_fatal rfl _⟩

/-- Handling a winner calls for what may fail. -/
theorem notes_takeWinner (s : Course σ) (w : Candidate) :
    ∃ more, Notes s (p.takeWinner c simulate s w) more ∧ Passed more := by
  unfold takeWinner
  split
  next => exact p.notes_settle c simulate (.ok none, s) w
  next =>
    have hlooked : Notes s (p.lookUp c w.unit w.tag s).2 _ := .one rfl rfl rfl
    obtain ⟨more, hnotes, hpassed⟩ := p.notes_settle c simulate (p.lookUp c w.unit w.tag s) w
    exact ⟨_, hlooked.trans hnotes, (passed_of_not_fatal rfl _).append hpassed⟩

theorem notes_winners (ws : List Candidate) (s : Course σ) :
    ∃ more, Notes s (ws.foldl (p.takeWinner c simulate) s) more ∧ Passed more := by
  induction ws generalizing s with
  | nil => exact ⟨[], .none rfl rfl, by simp [Passed]⟩
  | cons w rest ih =>
    obtain ⟨more, hnotes, hpassed⟩ := p.notes_takeWinner c simulate s w
    obtain ⟨more', hnotes', hpassed'⟩ := ih (p.takeWinner c simulate s w)
    exact ⟨more ++ more', hnotes.trans hnotes', hpassed.append hpassed'⟩

theorem noting_takeBlock (b : Block) (next : Option Block) :
    (p.takeBlock c simulate b next).Noting := by
  refine .bind (noting_quiet fun _ => ⟨rfl, rfl⟩) fun _ => .bind noting_renew fun _ =>
    .bind (p.noting_judge c b) fun winners => noting_update fun s => ?_
  obtain ⟨more, hnotes, hpassed⟩ := p.notes_winners c simulate
    (Selector.giveOut s.run.given none winners).1
    { s with run.given := (Selector.giveOut s.run.given none winners).2.1 }
  exact ⟨more, ⟨hnotes.calls, hnotes.name, hnotes.still⟩, hpassed⟩

theorem noting_takeBlocks (bs : List (Block × Option Block)) :
    (p.takeBlocks c simulate bs).Noting := by
  induction bs with
  | nil => exact noting_quiet fun _ => ⟨rfl, rfl⟩
  | cons entry rest ih => exact (p.noting_takeBlock c simulate entry.1 entry.2).bind fun _ => ih

theorem noting_gather : (p.gather simulate).Noting := by
  refine .bind (noting_ask rfl rfl _) fun c => .bind (noting_ask rfl rfl _) fun _ =>
    .bind (noting_ask rfl rfl _) fun _ => .bind (noting_ask rfl rfl _) fun since =>
    .bind (noting_quiet fun _ => ⟨rfl, rfl⟩) fun _ => .bind (noting_attempt rfl rfl _) fun _ =>
    .bind (noting_attempt rfl rfl _) fun _ => .bind (noting_ask rfl rfl _) fun read =>
    .bind (p.noting_takeBlocks c simulate _) fun _ => noting_close read.2

/-- The checkpoint is moved by the last call. -/
theorem outcome_conclude (s : Course σ) :
    (s.run.latest = none ∧ p.conclude.outcome s = (.ok (), s)) ∨
      ∃ latest t, s.run.latest = some latest ∧ p.conclude.outcome s = ((p.move latest s.world).1, t) ∧
        t.calls = s.calls ++ [⟨.move latest, raisedBy (p.move latest s.world).1⟩] ∧
        t.lease = s.lease := by
  unfold conclude
  rw [outcome_inspect_bind]
  cases s.run.latest with
  | none => exact Or.inl ⟨rfl, rfl⟩
  | some latest =>
    refine Or.inr ⟨latest, ?_⟩
    dsimp only
    rw [outcome_ask_bind]
    rcases p.move latest s.world with ⟨given, world⟩
    cases given with
    | error e => exact ⟨_, rfl, rfl, rfl, rfl⟩
    | ok u => exact ⟨_, rfl, rfl, rfl, rfl⟩

theorem tells_work (s : Course σ) :
    ∃ more, ((p.work simulate).outcome s).2.calls = s.calls ++ more ∧
      ((p.work simulate).outcome s).2.lease.name = s.lease.name ∧
      Tells more ((p.work simulate).outcome s).1 ∧
      ∀ x ∈ more, x.stop? ≠ none → x.call.isMove = false → ∀ y ∈ more, y.call.isMove = false := by
  obtain ⟨more, hnotes, htells⟩ := p.noting_gather simulate s
  unfold work
  rw [outcome_bind]
  generalize (p.gather simulate).outcome s = done at hnotes htells ⊢
  obtain ⟨result, t⟩ := done
  cases result with
  | error e => exact ⟨more, hnotes.calls, hnotes.name, htells, fun _ _ _ _ => hnotes.still⟩
  | ok u =>
    have hpassed : Passed more := htells
    dsimp only at hnotes ⊢
    -- nothing has stopped the run so far, and only the move of the checkpoint is left
    rcases p.outcome_conclude t with ⟨-, hdone⟩ | ⟨latest, t', -, hdone, hcalls, hlease⟩
    · rw [hdone]
      exact ⟨more, hnotes.calls, hnotes.name, hpassed, fun _ _ _ _ => hnotes.still⟩
    · rw [hdone]
      have hmoved : Tells [⟨.move latest, _⟩] _ := tells_raised rfl (p.move latest t.world).1
      refine ⟨more ++ [⟨.move latest, raisedBy (p.move latest t.world).1⟩], ?_, ?_, ?_, ?_⟩
      · rw [hcalls, hnotes.calls, List.append_assoc]
      · rw [hlease]
        exact hnotes.name
      · dsimp only
        generalize (p.move latest t.world).1 = given at hmoved ⊢
        cases given with
        | ok u => exact hpassed.append hmoved
        | error e => exact .after hpassed hmoved
      · intro x hx hstop hstill
        rcases List.mem_append.mp hx with hx | hx
        · exact absurd (hpassed x hx) hstop
        · obtain rfl := List.mem_singleton.mp hx
          cases hstill

end Services

namespace Job

variable {σ : Type} {j : Job σ} {p : Services σ} {owner : String}

/-- The report of a run whose work has come to this. -/
def reportOf (j : Job σ) (done : Except Failure Unit) (s : Course σ) : RunReport :=
  { RunReport.start j.world.now with
    counts := s.run.handled.counts
    error := (raisedBy done).map Failure.message
    since := s.since
    checkpoint := s.moved
    finished := some s.world.now }

/-- A run that has the lease gives it back when its work has come to an end. -/
theorem run_of_granted
    (hheld : (j.lease.acquire owner j.world.now j.world.leases).1 = .ok true)
    (haccess : (j.work p owner).2.world.leases.access = .ok ()) :
    ∃ lease, lease.locked = false ∧ j.run p owner =
      (.ok (j.reportOf (j.work p owner).1 (j.work p owner).2), (j.work p owner).2.calls,
        { world := { (j.work p owner).2.world with
            leases := (j.work p owner).2.lease.relinquish owner (j.work p owner).2.world.leases }
          lease := lease
          timers := (j.work p owner).2.timers
          simulates := j.simulates
          audit := j.audit ++ (j.work p owner).2.run.handled.audit
          last := some (j.reportOf (j.work p owner).1 (j.work p owner).2) }) := by
  obtain ⟨lease, hfree, hrelease⟩ := (j.work p owner).2.lease.release_frees owner haccess
  refine ⟨lease, hfree, ?_⟩
  unfold run
  rcases hacquire : j.lease.acquire owner j.world.now j.world.leases with ⟨held, taken, leases⟩
  rw [hacquire] at hheld
  obtain rfl : held = .ok true := hheld
  dsimp only
  rw [hrelease]
  rfl

theorem run_of_refused
    (hheld : (j.lease.acquire owner j.world.now j.world.leases).1 = .ok false) :
    j.run p owner =
      (.ok { RunReport.start j.world.now with skipped := true, finished := some j.world.now }, [], j) := by
  unfold run
  rw [Lease.acquire_ok_false hheld]

/-- A run without the lease does nothing; one that has it leaves what its work leaves, up to the leases,
and reports on it. -/
theorem run_cases (j : Job σ) (p : Services σ) (owner : String) :
    ((j.run p owner).2.1 = [] ∧ (∃ leases, (j.run p owner).2.2.world = { j.world with leases }) ∧
        ∀ report, (j.run p owner).1 = .ok report → report.skipped = true ∧ report.checkpoint = none) ∨
      (j.run p owner).2.1 = (j.work p owner).2.calls ∧
        (∃ leases, (j.run p owner).2.2.world = { (j.work p owner).2.world with leases }) ∧
        ∀ report, (j.run p owner).1 = .ok report →
          report = j.reportOf (j.work p owner).1 (j.work p owner).2 := by
  unfold run
  dsimp only
  split
  next => exact Or.inl ⟨rfl, ⟨_, rfl⟩, by rintro report ⟨⟩⟩
  next => exact Or.inl ⟨rfl, ⟨_, rfl⟩, by rintro report ⟨⟩; exact ⟨rfl, rfl⟩⟩
  next =>
    refine Or.inr ?_
    split
    next => exact ⟨rfl, ⟨_, rfl⟩, by rintro report ⟨⟩⟩
    next => exact ⟨rfl, ⟨_, rfl⟩, by rintro report ⟨⟩; rfl⟩

/-- A run leaves its control state in order. With the lease granted it ends in a report, whatever has
failed: a call that stops it is what the report names, and unless it was the move of the checkpoint
itself, the checkpoint has not been moved; where no such call fails, the run has not failed. The lock
is free and the own record of the lease is gone, but not that of another owner. With the lease refused
nothing is called upon, and nothing changes. -/
theorem run_control_state (j : Job σ) (p : Services σ) (owner : String) :
    ((j.lease.acquire owner j.world.now j.world.leases).1 = .ok true →
      (j.work p owner).2.world.leases.access = .ok () →
      ∃ report calls after, j.run p owner = (.ok report, calls, after) ∧ report.skipped = false ∧
        (∀ x ∈ calls, ∀ f, x.stop? = some f → report.error = some f.message ∧
          (x.call.isMove = false → ∀ y ∈ calls, y.call.isMove = false)) ∧
        ((∀ x ∈ calls, x.stop? = none) → report.error = none) ∧
        after.lease.locked = false ∧ after.last = some report ∧
        after.world.leases.find? j.lease.name =
          ((j.work p owner).2.world.leases.find? j.lease.name).filter (·.owner != owner)) ∧
    ((j.lease.acquire owner j.world.now j.world.leases).1 = .ok false →
      ∃ report, j.run p owner = (.ok report, [], j) ∧ report.skipped = true) := by
  constructor
  · intro hheld haccess
    obtain ⟨lease, hfree, hrun⟩ := run_of_granted hheld haccess
    obtain ⟨calls, hcalls, hname, htells, hstill⟩ := p.tells_work j.simulates (j.start owner)
    rw [show (p.work j.simulates).outcome (j.start owner) = j.work p owner from rfl] at *
    have hstarted : (j.start owner).lease.name = j.lease.name := by
      obtain ⟨-, e, -, htaken⟩ := Lease.acquire_granted hheld
      change (j.lease.acquire owner j.world.now j.world.leases).2.1.name = j.lease.name
      rw [htaken]
    have hnone : (j.start owner).calls = [] := rfl
    rw [hnone, List.nil_append] at hcalls
    rw [hcalls] at hrun
    refine ⟨_, calls, _, hrun, rfl, ?_, ?_, hfree, rfl, ?_⟩
    · intro x hx f hstop
      refine ⟨?_, hstill x hx (by rw [hstop]; exact Option.some_ne_none f)⟩
      exact congrArg (·.map Failure.message) (htells.raisedBy_of_stop hx hstop)
    · intro hpassed
      exact congrArg (·.map Failure.message) (htells.raisedBy_of_passed hpassed)
    · rw [← hstarted, ← hname]
      exact Lease.find?_relinquish ..
  · intro hheld
    exact ⟨_, run_of_refused hheld, rfl⟩

/-- Three units report a lamp that is out. The second has an open complaint already; the third can
neither be looked up nor entered. While the stream is read another takes the lease over, and then the
stream may break off. -/
def lampServices (broken : Option Failure) : Services Unit where
  rules w := (.ok { Config.standard with
    ruleSets := ⟨⟨true, none, [.simple { (default : Rule) with
      tag := "Tag1", condition := .equals, threshold := .whole 1, enabled := true }]⟩, .empty⟩ }, w)
  source _ w := (.ok (), w)
  store _ w := (.ok (), w)
  checkpoint w := (.ok 0, w)
  communication _ w := (.error .readingsRefused, w)
  power _ w := (.ok [], w)
  stream _ _ w := (.ok (["101", "102", "103", "104"].map fun unit =>
    ⟨unit, "Tag1", .int (if unit = "104" then 0 else 1), 60, .unified, some []⟩, broken), w)
  elapse w := { w with leases := w.leases.put "run" ⟨"other", 0⟩ }
  past _ _ _ := .error .readingsRefused
  find _ unit _ w :=
    (if unit = "102" then .ok (some ⟨7, some "0007", some "REGISTERED"⟩)
      else if unit = "103" then .error .databaseRefused else .ok none, w)
  enter _ winner w := (if winner.unit = "103" then .error .databaseRefused else .ok (), w)
  move _ w := (.ok (), w)

def lampJob : Job Unit where
  world := ⟨0, .empty, ()⟩
  lease := .fresh "run" 600000000
  timers := .empty true
  simulates := false
  audit := []
  last := none

/-- The stream breaks off, and so the run fails; it leaves the lease to the other. -/
theorem lampJob_broken :
    ∃ report calls after, lampJob.run (lampServices (some (.sourceDown "stream"))) "first" =
        (.ok report, calls, after) ∧ report.error = some "stream down" ∧
      (∀ y ∈ calls, y.call.isMove = false) ∧ after.lease.locked = false ∧
      after.world.leases.find? "run" = some ⟨"other", 0⟩ := by
  let p := lampServices (some (.sourceDown "stream"))
  have hheld : (lampJob.lease.acquire "first" lampJob.world.now lampJob.world.leases).1 =
      .ok true := rfl
  have haccess : (lampJob.work p "first").2.world.leases.access = .ok () :=
    LeaseTable.access_ok (by decide +kernel) (by decide +kernel)
  obtain ⟨report, calls, after, hrun, -, hstop, -, hfree, -, hrow⟩ :=
    (lampJob.run_control_state p "first").1 hheld haccess
  have hcalls : (false, some (.sourceDown "stream")) ∈
      calls.map fun x => (x.call.isMove, x.stop?) := by
    rw [show calls = (lampJob.run p "first").2.1 by rw [hrun]]
    decide +kernel
  obtain ⟨x, hx, hbroken⟩ := List.mem_map.mp hcalls
  obtain ⟨hread, hbroken⟩ := Prod.mk.inj hbroken
  obtain ⟨herror, hstill⟩ := hstop x hx _ hbroken
  refine ⟨report, calls, after, hrun, herror, hstill hread, hfree, ?_⟩
  rw [show lampJob.lease.name = "run" from rfl] at hrow
  rw [hrow]
  decide +kernel

end Job

end FaultDesk
