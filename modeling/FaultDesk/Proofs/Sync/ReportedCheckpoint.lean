import FaultDesk.Proofs.Sync.CheckpointOrder
import FaultDesk.Proofs.Sync.DeskJob

/-!
The checkpoint that a run reports, and the time after which the next one reads. The report has the
latest sample of the stream; what is stored, and read again by the next run, is that or the clock at
the writing, whichever comes first. A run that fails before it comes to the checkpoint reads none.
-/

namespace FaultDesk

open Checkpoint

/-- The calls with which a run opens what it needs before it reads the checkpoint. -/
def Call.opening : Call → Bool
  | rules | source | store => true
  | _ => false

/-! ## The work of a run -/

namespace Services

open Working

variable {σ : Type} {register : σ → Register} {key : String} {lookback : Double} {p : Services σ}
  {simulate : Bool} {w : World σ} {s : Course σ}

/-- How the work up to the end of a stream leaves what began in a world: the checkpoint is as it was,
and has been read there, unless a call for something else has failed before or the reading itself. -/
structure Gathers (register : σ → Register) (key : String) (p : Services σ) (w : World σ)
    (done : Except Failure Unit × Course σ) : Prop where
  leaves : w.Leaves register key done.2.world
  moved : done.2.moved = none
  since : (∃ w' since, w.Leaves register key w' ∧ (p.checkpoint w').1 = .ok since ∧
      done.2.since = some since) ∨
    done.2.since = none ∧ (∃ f, done.1 = .error f) ∧
      ((∃ x ∈ done.2.calls, x.call.opening = true ∧ x.raised ≠ none) ∨
        ∃ w' f, w.Leaves register key w' ∧ (p.checkpoint w').1 = .error f)

/-- A course that began in a world and has not come to the checkpoint. -/
structure Early (register : σ → Register) (key : String) (w : World σ) (s : Course σ) : Prop where
  leaves : w.Leaves register key s.world
  since : s.since = none
  moved : s.moved = none

/-- Where an opening call is answered the work goes on, and where it fails the work has ended. -/
theorem Gathers.opening {α : Type} {call : Call} {service : Serving σ α} {f : α → Working σ Unit}
    (hcall : call.opening = true) (hservice : service.Leaves register key)
    (hs : Early register key w s)
    (hf : ∀ a s', Early register key w s' → Gathers register key p w ((f a).outcome s')) :
    Gathers register key p w ((ask call service >>= f).outcome s) := by
  have hleaves := hs.leaves.trans (hservice s.world)
  rw [outcome_ask_bind]
  generalize service s.world = answered at hleaves ⊢
  obtain ⟨given, world⟩ := answered
  cases given with
  | ok a => exact hf a _ ⟨hleaves, hs.since, hs.moved⟩
  | error e =>
    refine ⟨hleaves, hs.moved, Or.inr ⟨hs.since, ⟨e, rfl⟩, Or.inl ⟨⟨call, some e⟩, ?_, hcall, ?_⟩⟩⟩
    · exact List.mem_append_right _ List.mem_cons_self
    · exact Option.some_ne_none e

theorem gathers_gather (hp : p.Tends register key lookback) (simulate : Bool)
    (hs : Early register key w s) : Gathers register key p w ((p.gather simulate).outcome s) := by
  unfold gather
  refine .opening rfl hp.rules hs fun c s₁ h₁ => .opening rfl (hp.source c) h₁ fun _ s₂ h₂ =>
    .opening rfl (hp.store c) h₂ fun _ s₃ h₃ => ?_
  have hread := h₃.leaves.trans (hp.reading s₃.world)
  rw [outcome_ask_bind]
  rcases hgiven : p.checkpoint s₃.world with ⟨given, world⟩
  rw [hgiven] at hread
  cases given with
  | error e =>
    exact ⟨hread, h₃.moved, Or.inr ⟨h₃.since, ⟨e, rfl⟩,
      Or.inr ⟨s₃.world, e, h₃.leaves, congrArg Prod.fst hgiven⟩⟩⟩
  | ok since =>
    -- from here on the time that has been read stays noted
    have hrest (work : Working σ Unit) (hwork : work.Sparing register key) : Gathers register key p w
        ((update (fun s => { s with since := some since }) >>= fun _ => work).outcome
          (({ s₃ with world }).noted .checkpoint none)) := by
      rw [outcome_update_bind]
      have hpassed := hwork { ({ s₃ with world }).noted .checkpoint none with since := some since }
      exact ⟨hread.trans hpassed.leaves, hpassed.moved.trans h₃.moved,
        Or.inl ⟨s₃.world, since, h₃.leaves, congrArg Prod.fst hgiven, hpassed.since⟩⟩
    refine hrest _ ((idling_attempt (hp.communication c)).sparing.bind fun _ =>
      (idling_attempt (hp.power c)).sparing.bind fun _ =>
      (idling_ask (hp.stream c since)).sparing.bind fun given =>
      (sparing_takeBlocks hp _).bind fun _ => (idling_close given.2).sparing)

/-- Work that has not moved the checkpoint by a call leaves it as it was; the call that moves it comes
after all else. -/
theorem gathers_work (hp : p.Tends register key lookback) (simulate : Bool)
    (hs : Early register key w s) :
    Gathers register key p w ((p.work simulate).outcome s) ∨
      ∃ t l, Gathers register key p w (.ok (), t) ∧
        ((p.work simulate).outcome s).2.world = (p.move l t.world).2 ∧
        ((p.work simulate).outcome s).2.since = t.since ∧
        ((p.work simulate).outcome s).2.calls = t.calls ++ [⟨.move l, raisedBy (p.move l t.world).1⟩] ∧
        ((p.move l t.world).1 = .ok () ∧ ((p.work simulate).outcome s).2.moved = some l ∨
          ((p.work simulate).outcome s).2.moved = none) := by
  have hgathered := gathers_gather hp simulate hs
  unfold work
  rw [outcome_bind]
  generalize (p.gather simulate).outcome s = done at hgathered ⊢
  obtain ⟨result, t⟩ := done
  cases result with
  | error e => exact Or.inl hgathered
  | ok u =>
    dsimp only
    rcases p.conclude_cases t with hnone | ⟨l, -, hworld, hsince, hcalls, hmoved⟩
    · rw [hnone]
      exact Or.inl hgathered
    · rw [hgathered.moved] at hmoved
      exact Or.inr ⟨t, l, hgathered, hworld, hsince, hcalls, hmoved⟩

/-- Work by which the checkpoint has been moved has stored it, or the clock at the writing if that is
earlier. -/
theorem held?_work (hp : p.Tends register key lookback) (haccess : (register w.rest).access = .ok ())
    (hpast : 0 ≤ w.now) (hs : Early register key w s) {l : Instant}
    (hmoved : ((p.work simulate).outcome s).2.moved = some l) :
    ∃ now, w.now ≤ now ∧ now ≤ ((p.work simulate).outcome s).2.world.now ∧
      (register ((p.work simulate).outcome s).2.world.rest).access = .ok () ∧
      held? (register ((p.work simulate).outcome s).2.world.rest) key = some (min l now) := by
  rcases gathers_work hp simulate hs with hstill | ⟨t, l', hgathered, hworld, -, -, hend⟩
  · cases hstill.moved.symm.trans hmoved
  · rcases hend with ⟨hdone, hmoved'⟩ | hnone
    · obtain rfl := Option.some.inj (hmoved'.symm.trans hmoved)
      obtain ⟨now, hfrom, hto, hgiven, hregister⟩ := hp.move l' t.world
      have hclock := Int.le_trans hgathered.leaves.clock hfrom
      have hstored := held?_of_set_ok key (hgathered.leaves.access haccess)
        (Int.le_trans hpast hclock) (hgiven.symm.trans hdone)
      rw [hworld, hregister]
      exact ⟨now, hclock, hto, hstored⟩
    · cases hnone.symm.trans hmoved

theorem leaves_work (hp : p.Tends register key lookback) (hs : Early register key w s)
    (hstill : ∀ x ∈ ((p.work simulate).outcome s).2.calls, x.call.isMove = false) :
    w.Leaves register key ((p.work simulate).outcome s).2.world := by
  rcases gathers_work hp simulate hs with hgathered | ⟨t, l, -, -, -, hcalls, -⟩
  · exact hgathered.leaves
  · rw [hcalls] at hstill
    cases hstill _ (List.mem_append_right _ List.mem_cons_self)

/-- Work that meets with one time wherever it reads the checkpoint notes that time, unless it fails to
open what it needs. -/
theorem since_work (hp : p.Tends register key lookback) (hs : Early register key w s) {t : Instant}
    (hread : ∀ w', w.Leaves register key w' → (p.checkpoint w').1 = .ok t) :
    ((p.work simulate).outcome s).2.since = some t ∨
      ((p.work simulate).outcome s).2.since = none ∧
        ∃ x ∈ ((p.work simulate).outcome s).2.calls, x.call.opening = true ∧ x.raised ≠ none := by
  have hsame {done : Except Failure Unit × Course σ} (h : Gathers register key p w done) :
      done.2.since = some t ∨ done.2.since = none ∧ (∃ f, done.1 = .error f) ∧
        ∃ x ∈ done.2.calls, x.call.opening = true ∧ x.raised ≠ none := by
    rcases h.since with ⟨w', since, hw', hgiven, hsince⟩ | ⟨hnone, hended, hcall | ⟨w', f, hw', hgiven⟩⟩
    · obtain rfl := Except.ok.inj ((hread w' hw').symm.trans hgiven)
      exact Or.inl hsince
    · exact Or.inr ⟨hnone, hended, hcall⟩
    · cases (hread w' hw').symm.trans hgiven
  rcases gathers_work hp simulate hs with hgathered | ⟨t', l, hgathered, -, hsince, -, -⟩
  · rcases hsame hgathered with hread | ⟨hnone, -, hcall⟩
    · exact Or.inl hread
    · exact Or.inr ⟨hnone, hcall⟩
  · rcases hsame hgathered with hread | ⟨-, ⟨f, hf⟩, -⟩
    · exact Or.inl (hsince.trans hread)
    · cases hf

end Services

/-! ## Runs -/

namespace Job

variable {σ : Type} {register : σ → Register} {key : String} {lookback : Double} {j j' : Job σ}
  {p : Services σ} {owner : String} {report : RunReport} {calls : List Called} {t : Instant}

theorem early_start (j : Job σ) (owner : String) :
    Services.Early register key j.world (j.start owner) :=
  ⟨(World.Leaves.refl j.world).lending _, rfl, rfl⟩

/-- A run that makes no call to move the checkpoint leaves it as it was. -/
theorem leaves_run (hp : p.Tends register key lookback) (j : Job σ) (owner : String)
    (hstill : ∀ x ∈ (j.run p owner).2.1, x.call.isMove = false) :
    j.world.Leaves register key (j.run p owner).2.2.world := by
  rcases j.run_cases p owner with ⟨-, ⟨leases, hworld⟩, -⟩ | ⟨hcalls, ⟨leases, hworld⟩, -⟩
  · rw [hworld]
    exact (World.Leaves.refl _).lending leases
  · rw [hcalls] at hstill
    rw [hworld]
    exact (Services.leaves_work hp (j.early_start owner) hstill).lending leases

/-- A run that reports a checkpoint has stored it, or the clock at the writing if that is earlier. -/
theorem held?_of_reported (hp : p.Tends register key lookback)
    (haccess : (register j.world.rest).access = .ok ()) (hpast : 0 ≤ j.world.now)
    (hrun : j.run p owner = (.ok report, calls, j')) (ht : report.checkpoint = some t) :
    ∃ now, j.world.now ≤ now ∧ now ≤ j'.world.now ∧ (register j'.world.rest).access = .ok () ∧
      held? (register j'.world.rest) key = some (min t now) := by
  have hcases := j.run_cases p owner
  rw [hrun] at hcases
  rcases hcases with ⟨-, -, hreport⟩ | ⟨-, ⟨leases, hworld⟩, hreport⟩
  · cases (hreport report rfl).2.symm.trans ht
  · rw [hreport report rfl] at ht
    dsimp only at hworld
    rw [hworld]
    exact Services.held?_work hp haccess hpast (j.early_start owner) ht

/-- A run that has the lease reads a checkpoint that does not lie ahead of the clock as it is stored,
unless it fails to open what it needs. -/
theorem since_of_held (hp : p.Tends register key lookback)
    (haccess : (register j.world.rest).access = .ok ())
    (hheld : held? (register j.world.rest) key = some t) (hbehind : t ≤ j.world.now)
    (hrun : j.run p owner = (.ok report, calls, j')) (hgranted : report.skipped = false) :
    report.since = some t ∨
      report.since = none ∧ ∃ x ∈ calls, x.call.opening = true ∧ x.raised ≠ none := by
  have hread (w : World σ) (hw : j.world.Leaves register key w) : (p.checkpoint w).1 = .ok t := by
    obtain ⟨seen, now, hseen, hgiven⟩ := hp.checkpoint w
    have hbefore := Int.le_trans hbehind (Int.le_trans hw.clock hseen)
    rw [hgiven, getNoting_of_held (hw.access haccess) (hw.held?.trans hheld) hbefore]
  have hcases := j.run_cases p owner
  rw [hrun] at hcases
  rcases hcases with ⟨-, -, hreport⟩ | ⟨hcalls, -, hreport⟩
  · cases hgranted.symm.trans (hreport report rfl).1
  · dsimp only at hcalls
    rw [hcalls, hreport report rfl]
    exact Services.since_work hp (j.early_start owner) hread

/-- From one job to a later one with the checkpoint as it was: time goes by, and there may be runs that
do not move it, be it that they have not got the lease, that they fail or that there is no sample. -/
inductive Onward (register : σ → Register) (key : String) (j : Job σ) : Job σ → Prop where
  | refl : Onward register key j j
  | meanwhile {j' j'' : Job σ} : Onward register key j j' → j'.world.Leaves register key j''.world →
      Onward register key j j''
  | run {j' : Job σ} {p : Services σ} {lookback : Double} {owner : String} :
      Onward register key j j' → p.Tends register key lookback →
      (∀ x ∈ (j'.run p owner).2.1, x.call.isMove = false) →
      Onward register key j (j'.run p owner).2.2

theorem Onward.leaves (h : j.Onward register key j') : j.world.Leaves register key j'.world := by
  induction h with
  | refl => exact .refl _
  | meanwhile _ hleaves ih => exact ih.trans hleaves
  | run _ hp hstill ih => exact ih.trans (leaves_run hp _ _ hstill)

/-- What a run reports as its checkpoint, or the clock at which the checkpoint was written if that is
earlier, is the time after which the next run reads that has the lease, and every later one until the
checkpoint is moved again. Only a run that fails to open what it needs reads after no time. -/
theorem since_after_reported (hp : p.Tends register key lookback)
    (haccess : (register j.world.rest).access = .ok ()) (hpast : 0 ≤ j.world.now)
    (hrun : j.run p owner = (.ok report, calls, j')) (ht : report.checkpoint = some t) :
    ∃ now, j.world.now ≤ now ∧ now ≤ j'.world.now ∧
      ∀ k, j'.Onward register key k → ∀ (q : Services σ) (lookback' : Double) (owner' : String)
        (report' : RunReport) (calls' : List Called) (k' : Job σ), q.Tends register key lookback' →
        k.run q owner' = (.ok report', calls', k') → report'.skipped = false →
        report'.since = some (min t now) ∨
          report'.since = none ∧ ∃ x ∈ calls', x.call.opening = true ∧ x.raised ≠ none := by
  obtain ⟨now, hfrom, hto, haccess', hheld⟩ := held?_of_reported hp haccess hpast hrun ht
  refine ⟨now, hfrom, hto, fun k hk q lookback' owner' report' calls' k' hq hrun' hgranted => ?_⟩
  have hleaves := hk.leaves
  have hbehind : min t now ≤ k.world.now :=
    Int.le_trans (Int.min_le_right t now) (Int.le_trans hto hleaves.clock)
  exact since_of_held hq (hleaves.access haccess') (hleaves.held?.trans hheld) hbehind hrun' hgranted

/-- The second run begins two hours later. It reads after the time at which the first has written the
checkpoint, for the reading that the first reports lay ahead of that. -/
theorem slowJob_since_second :
    ∃ report calls j', slowJob.run slowServices "first" = (.ok report, calls, j') ∧
      report.checkpoint = some (2 * Span.hour + Span.minute) ∧
      ∃ report' calls' k', run { j' with world.now := j'.world.now + 2 * Span.hour } slowServices
          "second" = (.ok report', calls', k') ∧
        ∃ now, slowJob.world.now ≤ now ∧ now ≤ j'.world.now ∧
          report'.since = some (min (2 * Span.hour + Span.minute) now) := by
  have hchecked : (slowJob.run slowServices "first").1.toOption.bind (·.checkpoint) =
      some (2 * Span.hour + Span.minute) := by decide +kernel
  have hnext : ((run { (slowJob.run slowServices "first").2.2 with
      world.now := (slowJob.run slowServices "first").2.2.world.now + 2 * Span.hour } slowServices
      "second").1.toOption.map fun r => (r.skipped, r.since.isSome)) = some (false, true) := by
    decide +kernel
  rcases hrun : slowJob.run slowServices "first" with ⟨ended, calls, j'⟩
  rw [hrun] at hchecked hnext
  cases ended with
  | error f => cases hchecked
  | ok report =>
    have hreported : report.checkpoint = some (2 * Span.hour + Span.minute) := hchecked
    refine ⟨report, calls, j', rfl, hreported, ?_⟩
    obtain ⟨now, hfrom, hto, hafter⟩ :=
      since_after_reported slowServices_keeps.tends rfl (by decide) hrun hreported
    have hlater : j'.Onward id "run" { j' with world.now := j'.world.now + 2 * Span.hour } :=
      .meanwhile .refl ⟨Int.le_add_of_nonneg_right (by decide), id, rfl⟩
    rcases hrun' : run { j' with world.now := j'.world.now + 2 * Span.hour } slowServices "second"
      with ⟨ended', calls', k'⟩
    dsimp only at hnext
    rw [hrun'] at hnext
    cases ended' with
    | error f => cases hnext
    | ok report' =>
      obtain ⟨hgranted, hsome⟩ := Prod.mk.inj (Option.some.inj hnext)
      refine ⟨report', calls', k', rfl, now, hfrom, hto, ?_⟩
      rcases hafter _ hlater _ _ _ _ _ _ slowServices_keeps.tends hrun' hgranted with
        hsince | ⟨hnone, -⟩
      · exact hsince
      · rw [hnone] at hsome
        cases hsome

/-- The run reports a reading that lies ahead of its clock; the next one reads after the time at which
the checkpoint was written, or after none where it gets no rules. -/
theorem slowJob_reports_ahead :
    (slowJob.run slowServices "first").1.toOption.bind (·.checkpoint) =
        some (2 * Span.hour + Span.minute) ∧
      ((slowJob.run slowServices "first").2.2.run slowServices "second").1.toOption.map
        (fun r => (r.skipped, r.since)) = some (false, some (Span.hour + 9000000)) ∧
      ((slowJob.run slowServices "first").2.2.run
          { slowServices with rules := fun w => (.error .readingsRefused, tick w) }
          "second").1.toOption.map (fun r => (r.skipped, r.since)) = some (false, none) := by
  refine ⟨?_, ?_, ?_⟩ <;> decide +kernel

end Job

/-! ## Runs of a desk -/

namespace Desk

variable {d e : Desk} {report report' : RunReport} {t since : Instant}

/-- On a desk the clock stands still in a run. After a run that reports a checkpoint, a run of a desk
with that checkpoint reads after it, or after the clock of the first run if that is earlier. -/
theorem since_after_reported_desk (haccess : d.register.access = .ok ()) (hpast : 0 ≤ d.now)
    (hrun : d.run.1 = .ok report) (ht : report.checkpoint = some t) (hkey : e.runKey = d.runKey)
    (hleaves : d.run.2.world.Leaves (fun kept => kept.1) d.runKey e.world)
    (hrun' : e.run.1 = .ok report') (hgranted : report'.skipped = false)
    (hsince : report'.since = some since) : since = min t d.now := by
  obtain ⟨raw, -, hjob⟩ := d.run_eq_job
  obtain ⟨raw', -, hjob'⟩ := e.run_eq_job
  have hcases := d.job.run_cases d.services (freshOwner d.leases)
  rcases hfirst : d.job.run d.services (freshOwner d.leases) with ⟨ended, calls, after⟩
  rcases hsecond : e.job.run e.services (freshOwner e.leases) with ⟨ended', calls', after'⟩
  rw [hfirst] at hjob hcases
  rw [hsecond] at hjob'
  rw [hjob] at hrun hleaves
  rw [hjob'] at hrun'
  obtain rfl : ended = .ok report := hrun
  obtain rfl : ended' = .ok report' := hrun'
  obtain ⟨now, hfrom, hto, haccess', hheld⟩ :=
    Job.held?_of_reported d.services_tends haccess hpast hfirst ht
  have hstill : after.world.now = d.now := by
    rcases hcases with ⟨-, -, hreport⟩ | ⟨-, ⟨leases, hworld⟩, -⟩
    · cases (hreport report rfl).2.symm.trans ht
    · have hclock := d.works_job.now
      dsimp only at hworld
      rw [hworld]
      exact hclock
  obtain rfl : now = d.now := Int.le_antisymm (hstill ▸ hto) hfrom
  have hread := hleaves.held?.trans hheld
  have hbehind : min t d.now ≤ e.now := Int.le_trans (Int.min_le_right t d.now) hleaves.clock
  rw [← hkey] at hread
  rcases Job.since_of_held e.services_tends (hleaves.access haccess') hread hbehind hsecond hgranted with
    hsame | ⟨hnone, -⟩
  · exact Option.some.inj (hsince.symm.trans hsame)
  · cases hnone.symm.trans hsince

end Desk

end FaultDesk
