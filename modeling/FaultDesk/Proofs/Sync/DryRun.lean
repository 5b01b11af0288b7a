import FaultDesk.Proofs.Register.LatestIncident
import FaultDesk.Proofs.Sync.Yields

/-!
A dry run beside the real one. The real run enters faults, and its later look-ups read the register it
has entered them into; the dry run looks into the register as it was. They find the same, since a run
looks up each key once and an entry is seen by look-ups of its own key only.
-/

namespace FaultDesk

/-! ## What a dry run writes down -/

namespace AuditRecord

/-- The records of what would have been entered. -/
def payloads (audit : List AuditRecord) : List AuditRecord := audit.filter (·.kind == .simulated)

theorem payloads_append (audit more : List AuditRecord) :
    payloads (audit ++ more) = payloads audit ++ payloads more := List.filter_append ..

theorem payloads_rowRecords (r : Run) (rows : List (Row × List Sample)) (broken : Option Row) :
    payloads (Desk.rowRecords r rows broken) = [] := by
  refine List.filter_eq_nil_iff.mpr ?_
  intro record hrecord
  obtain ⟨row, -, rfl⟩ := List.mem_map.mp hrecord
  exact Bool.false_ne_true

end AuditRecord

/-- On the way from one state to another, what would have been entered has been written down: as many
of the winners as have been counted as processed. -/
def WrittenDown (ws : List Candidate) (h h' : Handled) : Prop :=
  ∃ entered : List Candidate, entered.Sublist ws ∧
    AuditRecord.payloads h'.audit = AuditRecord.payloads h.audit ++ entered.map Handled.simulated ∧
    h'.counts.processed = h.counts.processed + entered.length

theorem WrittenDown.none {h h' : Handled} (ws : List Candidate)
    (haudit : AuditRecord.payloads h'.audit = AuditRecord.payloads h.audit)
    (hprocessed : h'.counts.processed = h.counts.processed) : WrittenDown ws h h' :=
  ⟨[], List.nil_sublist ws, by simp [haudit], by simp [hprocessed]⟩

theorem WrittenDown.trans {ws ws' : List Candidate} {h h' h'' : Handled} (hw : WrittenDown ws h h')
    (hw' : WrittenDown ws' h' h'') : WrittenDown (ws ++ ws') h h'' := by
  obtain ⟨entered, hsub, haudit, hprocessed⟩ := hw
  obtain ⟨entered', hsub', haudit', hprocessed'⟩ := hw'
  refine ⟨entered ++ entered', hsub.append hsub', ?_, ?_⟩
  · rw [haudit', haudit, List.map_append, List.append_assoc]
  · rw [hprocessed', hprocessed, List.length_append, Nat.add_assoc]

namespace Desk

variable {c : Config} {sel : Selector} {r : Run} {d : Desk} {b : Block} {next : Option Block}
  {w : Candidate}

/-! ## The audit of a desk waits for the end of the blocks -/

theorem takeWinner_audit (state : Run × Desk) (w : Candidate) :
    (takeWinner c state w).2.audit = state.2.audit := by
  obtain ⟨r, d⟩ := state
  unfold takeWinner
  dsimp only
  rcases Handled.take_cases (book c.complaints) (closedSet c.closedStatuses) d.simulates w
      { r.handled with counts.candidates := r.handled.counts.candidates + 1 } d with
    hsame | ⟨-, -, hentered⟩
  · rw [hsame]
  · rw [hentered]
    unfold book
    dsimp only
    split
    next => split <;> rfl
    next => rfl

theorem winners_audit (ws : List Candidate) (state : Run × Desk) :
    (ws.foldl (takeWinner c) state).2.audit = state.2.audit := by
  induction ws generalizing state with
  | nil => rfl
  | cons w rest ih => exact (ih _).trans (takeWinner_audit state w)

theorem takeBlock_audit : (takeBlock c sel b next r d).2.2.audit = d.audit := by
  unfold takeBlock
  dsimp only
  split
  next => rfl
  next =>
    split
    next => rfl
    next => exact winners_audit ..

theorem takeBlocks_audit (bs : List (Block × Option Block)) (r : Run) (d : Desk) :
    (takeBlocks c sel bs r d).2.2.audit = d.audit := by
  induction bs generalizing r d with
  | nil => rfl
  | cons entry rest ih =>
    obtain ⟨b, next⟩ := entry
    have hblock := @takeBlock_audit c sel r d b next
    unfold takeBlocks
    split
    next he => rw [he] at hblock; exact hblock
    next he => rw [he] at hblock; exact (ih _ _).trans hblock

/-! ## Errors are not taken back -/

theorem errors_le_takeWinner (r : Run) (d : Desk) (w : Candidate) :
    r.handled.counts.errors ≤ (takeWinner c (r, d) w).1.handled.counts.errors := by
  unfold takeWinner
  dsimp only
  rcases Handled.take_ends (book c.complaints) (closedSet c.closedStatuses) d.simulates w
      { r.handled with counts.candidates := r.handled.counts.candidates + 1 } d with
    ⟨-, htake⟩ | ⟨-, ⟨i, -, htake⟩ | ⟨-, ⟨-, htake⟩ | ⟨-, entered, d', -, htake⟩⟩⟩
  · rw [htake]
  · rw [htake]
  · rw [htake]
  · rw [htake]
    cases entered with
    | true => exact Nat.le_refl _
    | false => exact Nat.le_succ _

theorem errors_le_winners (ws : List Candidate) (r : Run) (d : Desk) :
    r.handled.counts.errors ≤
      (ws.foldl (takeWinner c) (r, d)).1.handled.counts.errors := by
  induction ws generalizing r d with
  | nil => exact Nat.le_refl _
  | cons w rest ih => exact Nat.le_trans (errors_le_takeWinner r d w) (ih _ _)

theorem errors_le_takeBlock :
    r.handled.counts.errors ≤ (takeBlock c sel b next r d).2.1.handled.counts.errors := by
  unfold takeBlock
  dsimp only
  split
  next => exact Nat.le_refl _
  next =>
    split
    next => exact Nat.le_refl _
    next cs _ =>
      generalize Selector.giveOut (r.reading b next).given none cs = out
      exact errors_le_winners out.1 { r.reading b next with given := out.2.1 } _

theorem errors_le_takeBlocks (bs : List (Block × Option Block)) (r : Run) (d : Desk) :
    r.handled.counts.errors ≤ (takeBlocks c sel bs r d).2.1.handled.counts.errors := by
  induction bs generalizing r d with
  | nil => exact Nat.le_refl _
  | cons entry rest ih =>
    obtain ⟨b, next⟩ := entry
    have hblock := @errors_le_takeBlock c sel r d b next
    unfold takeBlocks
    split
    next he => rw [he] at hblock; exact hblock
    next he => rw [he] at hblock; exact Nat.le_trans hblock (ih _ _)

/-! ## The two runs side by side -/

/-- A desk with another register on which runs are dry. -/
def shadow (d : Desk) (g : Register) : Desk := { d with dryRun := true, register := g }

/-- The register of a dry run is as good as that of the real one: whatever has not come in the run yet
is found alike. -/
structure Foretold (g : Register) (r : Run) (d : Desk) : Prop where
  settings : g.settings = d.register.settings
  down : g.down = d.register.down
  find : ∀ unit tag, (unit, tag) ∉ r.handled.keys → g.find unit tag = d.register.find unit tag

end Desk

/-- A run that has written other audit records. -/
def Run.withAudit (r : Run) (audit : List AuditRecord) : Run :=
  { r with handled := { r.handled with audit } }

namespace Desk

variable {c : Config} {sel : Selector} {r : Run} {d : Desk} {b : Block} {next : Option Block}
  {w : Candidate} {g : Register}

theorem find_book_enter (mapping : ComplaintMapping) (d : Desk) {unit tag : String}
    (h : (unit, tag) ≠ w.key) :
    ((book mapping).enter d w).2.register.find unit tag = d.register.find unit tag := by
  rcases book_enter mapping d w with hsame | hentered
  · rw [hsame]
  · rw [hentered, Register.find_enter h]

/-- A fault that is entered goes into the register and nowhere else. -/
theorem shadow_enter {mapping : ComplaintMapping} {d : Desk}
    (h : ((book mapping).enter d w).1 = true) : ((book mapping).enter d w).2.shadow g = d.shadow g := by
  unfold book at *
  dsimp only at *
  split at h
  next hrefusals =>
    rw [if_pos hrefusals]
    split <;> rfl
  next => cases h

/-- Where the real run enters a winner, the dry run writes it down and leaves the register alone. -/
theorem take_foretold {mapping : ComplaintMapping} {closed : List String} {h : Handled}
    (audit : List AuditRecord)
    (hfind : w.key ∉ h.keys → g.find w.unit w.tag = d.register.find w.unit w.tag)
    (herrors : (h.take (book mapping) closed d.simulates w d).1.counts.errors = 0) :
    ∃ audit', Handled.take (book mapping) closed true w { h with audit } (d.shadow g) =
        ({ (h.take (book mapping) closed d.simulates w d).1 with audit := audit' },
          (h.take (book mapping) closed d.simulates w d).2.shadow g) ∧
      WrittenDown [w] { h with audit }
        { (h.take (book mapping) closed d.simulates w d).1 with audit := audit' } ∧
      ∀ unit tag, (unit, tag) ∉ (h.take (book mapping) closed d.simulates w d).1.keys →
        (unit, tag) ∉ h.keys ∧
          (h.take (book mapping) closed d.simulates w d).2.register.find unit tag =
            d.register.find unit tag := by
  have hlater {unit tag : String} (hnew : (unit, tag) ∉ w.key :: h.keys) :
      (unit, tag) ≠ w.key ∧ (unit, tag) ∉ h.keys := List.ne_and_not_mem_of_not_mem_cons hnew
  have hpayload : AuditRecord.payloads [Handled.simulated w] = [Handled.simulated w] := rfl
  have hbook : (book mapping).find (d.shadow g) w.unit w.tag = g.find w.unit w.tag := rfl
  have hreal : (book mapping).find d w.unit w.tag = d.register.find w.unit w.tag := rfl
  rcases Handled.take_ends (book mapping) closed d.simulates w h d with
    ⟨hkey, htake⟩ | ⟨hkey, ⟨i, hopen, htake⟩ | ⟨hnone, hend⟩⟩
  · rw [htake]
    refine ⟨audit, ?_, .none _ rfl rfl, fun unit tag hnew => ⟨hnew, rfl⟩⟩
    simp [Handled.take, hkey]
  · rw [htake]
    refine ⟨audit ++ [⟨.skipped, w.suppression i⟩], ?_, .none _ ?_ rfl,
      fun unit tag hnew => ⟨(hlater hnew).2, rfl⟩⟩
    · rw [hreal, ← hfind hkey] at hopen
      simp [Handled.take, hkey, hbook, hopen]
    · rw [AuditRecord.payloads_append]
      exact List.append_nil _
  · have hwritten : Handled.take (book mapping) closed true w { h with audit } (d.shadow g) =
        ({ counts := { h.counts with processed := h.counts.processed + 1 }
           keys := w.key :: h.keys
           audit := audit ++ [Handled.simulated w] }, d.shadow g) := by
      rw [hreal, ← hfind hkey] at hnone
      simp [Handled.take, hkey, hbook, hnone]
    have hdown (h' : Handled) (hprocessed : h'.counts.processed = h.counts.processed + 1) :
        WrittenDown [w] { h with audit } { h' with audit := audit ++ [Handled.simulated w] } :=
      ⟨[w], List.Sublist.refl _, by rw [AuditRecord.payloads_append, hpayload]; rfl, hprocessed⟩
    rw [hwritten]
    refine ⟨audit ++ [Handled.simulated w], ?_⟩
    rcases hend with ⟨-, htake⟩ | ⟨-, entered, d', henter, htake⟩
    · rw [htake]
      exact ⟨rfl, hdown _ rfl, fun unit tag hnew => ⟨(hlater hnew).2, rfl⟩⟩
    · rw [htake] at herrors ⊢
      cases entered with
      | false => cases herrors
      | true =>
        have hshadow : d'.shadow g = d.shadow g := by
          have hsame := @shadow_enter w g mapping d (by rw [henter])
          rwa [henter] at hsame
        refine ⟨?_, hdown _ rfl, ?_⟩
        · rw [hshadow]
          rfl
        · intro unit tag hnew
          have hkept := find_book_enter mapping d (hlater hnew).1
          rw [henter] at hkept
          exact ⟨(hlater hnew).2, hkept⟩

theorem takeWinner_foretold (h : Foretold g r d) (audit : List AuditRecord)
    (herrors : (takeWinner c (r, d) w).1.handled.counts.errors = 0) :
    Foretold g (takeWinner c (r, d) w).1 (takeWinner c (r, d) w).2 ∧
      ∃ audit', takeWinner c (r.withAudit audit, d.shadow g) w =
          ((takeWinner c (r, d) w).1.withAudit audit', (takeWinner c (r, d) w).2.shadow g) ∧
        WrittenDown [w] (r.withAudit audit).handled
          ((takeWinner c (r, d) w).1.withAudit audit').handled := by
  have halike := (@alike_takeWinner c (r, d) w).1
  obtain ⟨audit', htake, hdown, hlater⟩ := @take_foretold d w g c.complaints
    (closedSet c.closedStatuses)
    { r.handled with counts.candidates := r.handled.counts.candidates + 1 } audit
    (h.find w.unit w.tag) herrors
  refine ⟨⟨h.settings.trans halike.settings.symm, h.down.trans halike.down.symm, ?_⟩, audit', ?_,
    hdown⟩
  · intro unit tag hnew
    obtain ⟨hold, hkept⟩ := hlater unit tag hnew
    exact (h.find unit tag hold).trans hkept.symm
  · have hdry : takeWinner c (r.withAudit audit, d.shadow g) w =
        (fun out : Handled × Desk => ({ r with handled := out.1 }, out.2))
          (Handled.take (book c.complaints) (closedSet c.closedStatuses) true w
            { r.handled with counts.candidates := r.handled.counts.candidates + 1, audit := audit }
            (d.shadow g)) := rfl
    rw [hdry, htake]
    rfl

theorem winners_foretold (ws : List Candidate) {r : Run} {d : Desk} (h : Foretold g r d)
    (audit : List AuditRecord)
    (herrors : (ws.foldl (takeWinner c) (r, d)).1.handled.counts.errors = 0) :
    Foretold g (ws.foldl (takeWinner c) (r, d)).1 (ws.foldl (takeWinner c) (r, d)).2 ∧
      ∃ audit', ws.foldl (takeWinner c) (r.withAudit audit, d.shadow g) =
          ((ws.foldl (takeWinner c) (r, d)).1.withAudit audit',
            (ws.foldl (takeWinner c) (r, d)).2.shadow g) ∧
        WrittenDown ws (r.withAudit audit).handled
          ((ws.foldl (takeWinner c) (r, d)).1.withAudit audit').handled := by
  induction ws generalizing r d audit with
  | nil => exact ⟨h, audit, rfl, .none _ rfl rfl⟩
  | cons w rest ih =>
    simp only [List.foldl_cons] at herrors ⊢
    have hrest := @errors_le_winners c rest (takeWinner c (r, d) w).1 (takeWinner c (r, d) w).2
    obtain ⟨h', audit', hwinner, hdown⟩ := takeWinner_foretold h audit
      (Nat.le_zero.mp (Nat.le_trans hrest (Nat.le_of_eq herrors)))
    obtain ⟨h'', audit'', hwinners, hdown'⟩ := ih h' audit' herrors
    rw [hwinner, hwinners]
    exact ⟨h'', audit'', rfl, hdown.trans hdown'⟩

theorem takeBlock_foretold (h : Foretold g r d) (audit : List AuditRecord)
    (herrors : (takeBlock c sel b next r d).2.1.handled.counts.errors = 0) :
    Foretold g (takeBlock c sel b next r d).2.1 (takeBlock c sel b next r d).2.2 ∧
      ∃ audit', takeBlock c sel b next (r.withAudit audit) (d.shadow g) =
          ((takeBlock c sel b next r d).1, (takeBlock c sel b next r d).2.1.withAudit audit',
            (takeBlock c sel b next r d).2.2.shadow g) ∧
        WrittenDown (blockYields sel b r d) (r.withAudit audit).handled
          ((takeBlock c sel b next r d).2.1.withAudit audit').handled := by
  have hlease : (d.shadow g).lease.renew (d.shadow g).now (d.shadow g).leases =
      d.lease.renew d.now d.leases := rfl
  have htimers : (d.shadow g).timers = d.timers := rfl
  unfold takeBlock blockYields at *
  dsimp only at *
  rw [hlease]
  generalize d.lease.renew d.now d.leases = renewal at *
  obtain ⟨renewed, lease, leases⟩ := renewal
  cases renewed with
  | error e => exact ⟨⟨h.settings, h.down, h.find⟩, audit, rfl, .none _ rfl rfl⟩
  | ok held =>
    dsimp only at *
    rw [htimers]
    cases hwinners : (sel.flush b.unit b.samples d.timers).winners with
    | error e => exact ⟨⟨h.settings, h.down, h.find⟩, audit, rfl, .none _ rfl rfl⟩
    | ok cs =>
      simp only [hwinners] at *
      have htaken : Foretold g
          { r.reading b next with given := (Selector.giveOut r.given none cs).2.1 }
          { d with lease, leases, timers := (sel.flush b.unit b.samples d.timers).timers } :=
        ⟨h.settings, h.down, h.find⟩
      obtain ⟨hafter, audit', hwinners, hdown⟩ :=
        winners_foretold (Selector.giveOut r.given none cs).1 htaken audit herrors
      exact ⟨hafter, audit', congrArg (Prod.mk none) hwinners, hdown⟩

theorem takeBlocks_foretold (bs : List (Block × Option Block)) {r : Run} {d : Desk}
    (h : Foretold g r d) (audit : List AuditRecord)
    (herrors : (takeBlocks c sel bs r d).2.1.handled.counts.errors = 0) :
    Foretold g (takeBlocks c sel bs r d).2.1 (takeBlocks c sel bs r d).2.2 ∧
      ∃ audit', takeBlocks c sel bs (r.withAudit audit) (d.shadow g) =
          ((takeBlocks c sel bs r d).1, (takeBlocks c sel bs r d).2.1.withAudit audit',
            (takeBlocks c sel bs r d).2.2.shadow g) ∧
        blocksYield c sel bs (r.withAudit audit) (d.shadow g) = blocksYield c sel bs r d ∧
        WrittenDown (blocksYield c sel bs r d) (r.withAudit audit).handled
          ((takeBlocks c sel bs r d).2.1.withAudit audit').handled := by
  induction bs generalizing r d audit with
  | nil => exact ⟨⟨h.settings, h.down, h.find⟩, audit, rfl, rfl, .none _ rfl rfl⟩
  | cons entry rest ih =>
    obtain ⟨b, next⟩ := entry
    have hyields : blockYields sel b (r.withAudit audit) (d.shadow g) = blockYields sel b r d := rfl
    have hfirst : (takeBlock c sel b next r d).2.1.handled.counts.errors = 0 := by
      have hle : (takeBlock c sel b next r d).2.1.handled.counts.errors ≤
          (takeBlocks c sel ((b, next) :: rest) r d).2.1.handled.counts.errors := by
        unfold takeBlocks
        split
        next he => rw [he]
        next he => rw [he]; exact errors_le_takeBlocks ..
      omega
    obtain ⟨h', audit', hblock, hdown⟩ := takeBlock_foretold h audit hfirst
    unfold takeBlocks at herrors
    unfold takeBlocks blocksYield
    rw [hblock, hyields]
    generalize takeBlock c sel b next r d = taken at h' hdown herrors ⊢
    obtain ⟨failure, r', d'⟩ := taken
    cases failure with
    | some f =>
      exact ⟨h', audit', rfl, rfl, by rw [List.append_nil]; exact hdown⟩
    | none =>
      obtain ⟨h'', audit'', hblocks, hsame, hdown'⟩ := ih h' audit' herrors
      exact ⟨h'', audit'', hblocks, congrArg (_ ++ ·) hsame, hdown.trans hdown'⟩

end Desk

/-! ## Whole runs -/

/-- The checkpoint is set alike in registers with the same settings, and nothing else is touched. -/
theorem Checkpoint.set_alike {r g : Register} (hsettings : g.settings = r.settings)
    (hdown : g.down = r.down) (key : String) (at_ : Stamp) (now : Instant) :
    (set g key at_ now).1 = (set r key at_ now).1 ∧
      (set g key at_ now).2 = { g with settings := (set r key at_ now).2.settings } := by
  have haccess : g.access = r.access := by
    unfold Register.access
    rw [hdown]
  unfold set
  rw [haccess]
  cases at_.instant? with
  | none => exact ⟨rfl, by rw [← hsettings]⟩
  | some t =>
    cases r.access with
    | error f => exact ⟨rfl, by rw [← hsettings]⟩
    | ok u => exact ⟨rfl, by rw [hsettings]⟩

namespace Desk

variable {c : Config} {d e : Desk} {r : Run} {g : Register}

theorem conclude_foretold (h : Foretold g r e) (audit audit' : List AuditRecord)
    (failure : Option Failure) (report : RunReport) :
    (conclude { e.shadow g with audit } (r.withAudit audit') failure report).1 =
        (e.conclude r failure report).1 ∧
      (conclude { e.shadow g with audit } (r.withAudit audit') failure report).2 =
        { (e.conclude r failure report).2.shadow
            { g with settings := (e.conclude r failure report).2.register.settings } with audit } := by
  have hkeep : ({ g with settings := e.register.settings } : Register) = g := by rw [← h.settings]
  unfold conclude
  dsimp only [Run.withAudit]
  cases failure with
  | some f => exact ⟨rfl, by rw [hkeep]⟩
  | none =>
    cases r.latest with
    | none => exact ⟨rfl, by rw [hkeep]⟩
    | some latest =>
      obtain ⟨hresult, hregister⟩ :=
        Checkpoint.set_alike h.settings h.down e.runKey (.utc latest) e.now
      have hset : Checkpoint.set ({ e.shadow g with audit } : Desk).register
          ({ e.shadow g with audit } : Desk).runKey (.utc latest)
          ({ e.shadow g with audit } : Desk).now =
          Checkpoint.set g e.runKey (.utc latest) e.now := rfl
      dsimp only at hset ⊢
      rcases hreal : Checkpoint.set e.register e.runKey (.utc latest) e.now with ⟨result, register⟩
      rw [hreal] at hresult hregister
      have hdry : Checkpoint.set g e.runKey (.utc latest) e.now =
          (result, { g with settings := register.settings }) := Prod.ext hresult hregister
      rw [hset, hdry]
      cases result with
      | error f => exact ⟨rfl, rfl⟩
      | ok u => exact ⟨rfl, rfl⟩

/-- The end of a run's work, when blocks have come to something. -/
def concluding (rows : List (Row × List Sample)) (broken : Option (Row × Failure))
    (report : RunReport) (taken : Option Failure × Run × Desk) : RunReport × Desk :=
  let raw := if taken.2.2.development then rowRecords taken.2.1 rows (broken.map (·.1)) else []
  conclude { taken.2.2 with audit := taken.2.2.audit ++ taken.2.1.handled.audit ++ raw } taken.2.1
    (taken.1.or (broken.map (·.2))) report

theorem work_of_get_error {f : Failure} {report : RunReport}
    (hsince : Checkpoint.get d.register d.runKey d.lookback d.now = .error f) :
    d.work c report = ({ report with error := some f.message }, d) ∧ d.workYields c = [] := by
  unfold work workYields
  dsimp only
  rw [hsince]
  exact ⟨rfl, rfl⟩

theorem work_of_stream_error {since : Instant} {f : Failure} {report : RunReport}
    (hsince : Checkpoint.get d.register d.runKey d.lookback d.now = .ok since)
    (hstream : d.stream (.ofConfig c) since = .error f) :
    d.work c report = ({ report with error := some f.message, since := some since }, d) ∧
      d.workYields c = [] := by
  unfold work workYields
  dsimp only
  rw [hsince]
  dsimp only
  rw [hstream]
  exact ⟨rfl, rfl⟩

theorem work_eq_concluding {since : Instant} {rows : List (Row × List Sample)}
    {broken : Option (Row × Failure)} {report : RunReport}
    (hsince : Checkpoint.get d.register d.runKey d.lookback d.now = .ok since)
    (hstream : d.stream (.ofConfig c) since = .ok (rows, broken)) :
    d.work c report = concluding rows broken { report with since := some since }
      (takeBlocks c (d.selector c)
        (completed (streamSamples rows) (d.computedSamples (.ofConfig c)) broken.isSome) .start d) := by
  unfold work
  dsimp only
  rw [hsince]
  dsimp only
  rw [hstream]
  rfl

theorem workYields_eq_blocksYield {since : Instant} {rows : List (Row × List Sample)}
    {broken : Option (Row × Failure)}
    (hsince : Checkpoint.get d.register d.runKey d.lookback d.now = .ok since)
    (hstream : d.stream (.ofConfig c) since = .ok (rows, broken)) :
    d.workYields c = blocksYield c (d.selector c)
      (completed (streamSamples rows) (d.computedSamples (.ofConfig c)) broken.isSome) .start d := by
  unfold workYields
  dsimp only
  rw [hsince]
  dsimp only
  rw [hstream]

/-- What the work of a dry run leaves, beside the work of the real one. -/
structure Rehearses (d real dry : Desk) (yields : List Candidate) (processed : Nat) : Prop where
  rest : ∃ g audit, dry = { real.shadow g with audit }
  settings : dry.register.settings = real.register.settings
  faults : dry.register.faults = d.register.faults
  complaints : dry.register.complaints = d.register.complaints
  logs : dry.register.logs = d.register.logs
  written : ∃ (entered : List Candidate) (audit : List AuditRecord), dry.audit = d.audit ++ audit ∧
    AuditRecord.payloads audit = entered.map Handled.simulated ∧ entered.Sublist yields ∧
    entered.length = processed

theorem rehearses_idle (d : Desk) (yields : List Candidate) :
    Rehearses d d (d.shadow d.register) yields 0 := by
  refine ⟨⟨d.register, d.audit, rfl⟩, rfl, rfl, rfl, rfl, [], [], ?_, rfl, ?_, rfl⟩
  · exact (List.append_nil _).symm
  · exact List.nil_sublist yields

theorem concluding_foretold {rows : List (Row × List Sample)} {broken : Option (Row × Failure)}
    {report : RunReport} {yields : List Candidate} {failure : Option Failure}
    {audit : List AuditRecord} (h : Foretold d.register r e) (haudit : e.audit = d.audit)
    (hdown : WrittenDown yields .none (r.withAudit audit).handled) :
    (concluding rows broken report (failure, r.withAudit audit, e.shadow d.register)).1 =
        (concluding rows broken report (failure, r, e)).1 ∧
      Rehearses d (concluding rows broken report (failure, r, e)).2
        (concluding rows broken report (failure, r.withAudit audit, e.shadow d.register)).2 yields
        (concluding rows broken report (failure, r, e)).1.counts.processed := by
  obtain ⟨entered, hsub, hpayloads, hentered⟩ := hdown
  have hraw : AuditRecord.payloads
      (if e.development then rowRecords r rows (broken.map (·.1)) else []) = [] := by
    split
    next => exact AuditRecord.payloads_rowRecords ..
    next => rfl
  unfold concluding
  dsimp only
  generalize hrecords : (if e.development then rowRecords r rows (broken.map (·.1)) else []) = raw
    at hraw
  obtain ⟨hreport, hdry⟩ := @conclude_foretold { e with audit := e.audit ++ r.handled.audit ++ raw }
    r d.register ⟨h.settings, h.down, h.find⟩ (e.audit ++ audit ++ raw) audit
    (failure.or (broken.map (·.2))) report
  have hrecords' : (if (e.shadow d.register).development then
      rowRecords (r.withAudit audit) rows (broken.map (·.1)) else []) = raw := hrecords
  rw [hrecords']
  refine ⟨hreport, ⟨_, _, hdry⟩, ?_, ?_, ?_, ?_, entered, audit ++ raw, ?_, ?_, hsub, ?_⟩
  · exact congrArg (·.register.settings) hdry
  · exact congrArg (·.register.faults) hdry
  · exact congrArg (·.register.complaints) hdry
  · exact congrArg (·.register.logs) hdry
  · refine (congrArg (·.audit) hdry).trans ?_
    change e.audit ++ audit ++ raw = d.audit ++ (audit ++ raw)
    rw [haudit, List.append_assoc]
  · rw [AuditRecord.payloads_append, hraw, List.append_nil]
    exact hpayloads
  · rw [candidates_conclude]
    exact (hentered.trans (Nat.zero_add _)).symm

theorem work_foretold {report : RunReport} (hreport : report.counts = .zero)
    (herrors : (d.work c report).1.counts.errors = 0) :
    ((d.shadow d.register).work c report).1 = (d.work c report).1 ∧
      (d.shadow d.register).workYields c = d.workYields c ∧
      Rehearses d (d.work c report).2 ((d.shadow d.register).work c report).2 (d.workYields c)
        (d.work c report).1.counts.processed := by
  have hsince : Checkpoint.get (d.shadow d.register).register (d.shadow d.register).runKey
      (d.shadow d.register).lookback (d.shadow d.register).now =
        Checkpoint.get d.register d.runKey d.lookback d.now := rfl
  have hstream (since : Instant) : (d.shadow d.register).stream (.ofConfig c) since =
      d.stream (.ofConfig c) since := rfl
  have hidle : Rehearses d d (d.shadow d.register) [] report.counts.processed := by
    rw [hreport]
    exact d.rehearses_idle []
  cases hget : Checkpoint.get d.register d.runKey d.lookback d.now with
  | error f =>
    obtain ⟨hwork, hyields⟩ := @work_of_get_error c d f report hget
    obtain ⟨hwork', hyields'⟩ := @work_of_get_error c _ f report (hsince.trans hget)
    rw [hwork, hwork', hyields, hyields']
    exact ⟨rfl, rfl, hidle⟩
  | ok since =>
    cases hread : d.stream (.ofConfig c) since with
    | error f =>
      obtain ⟨hwork, hyields⟩ := @work_of_stream_error c d since f report hget hread
      obtain ⟨hwork', hyields'⟩ := @work_of_stream_error c _ since f report (hsince.trans hget)
        ((hstream since).trans hread)
      rw [hwork, hwork', hyields, hyields']
      exact ⟨rfl, rfl, hidle⟩
    | ok read =>
      obtain ⟨rows, broken⟩ := read
      have hwork' := @work_eq_concluding c _ since rows broken report (hsince.trans hget)
        ((hstream since).trans hread)
      have hyields' := workYields_eq_blocksYield (hsince.trans hget) ((hstream since).trans hread)
      rw [show (d.shadow d.register).selector c = d.selector c from rfl,
        show (d.shadow d.register).computedSamples (.ofConfig c) =
          d.computedSamples (.ofConfig c) from rfl] at hwork' hyields'
      rw [work_eq_concluding hget hread] at herrors ⊢
      have hstart : Foretold d.register .start d := ⟨rfl, rfl, fun _ _ _ => rfl⟩
      have hkept := @takeBlocks_audit c (d.selector c)
        (completed (streamSamples rows) (d.computedSamples (.ofConfig c)) broken.isSome) .start d
      obtain ⟨hafter, audit, hblocks, hyields, hdown⟩ := takeBlocks_foretold
        (completed (streamSamples rows) (d.computedSamples (.ofConfig c)) broken.isSome) hstart []
        (by rw [← candidates_conclude]; exact herrors)
      have hstarted : (Run.start.withAudit []) = .start := rfl
      rw [hstarted] at hblocks hyields hdown
      rw [hwork', hblocks, workYields_eq_blocksYield hget hread, hyields', hyields]
      obtain ⟨hreport, hleft⟩ := concluding_foretold hafter hkept hdown
      exact ⟨hreport, rfl, hleft⟩

theorem finishing_shadow (owner : String) (report : RunReport) (g : Register)
    (audit : List AuditRecord) :
    (finishing { d.shadow g with audit } owner report).1 = (d.finishing owner report).1 ∧
      (finishing { d.shadow g with audit } owner report).2 =
        { (d.finishing owner report).2.shadow g with audit } := by
  have hrelease : ({ d.shadow g with audit } : Desk).lease.release owner
      ({ d.shadow g with audit } : Desk).leases = d.lease.release owner d.leases := rfl
  unfold finishing
  dsimp only at hrelease ⊢
  rw [hrelease]
  obtain ⟨released, lease, leases⟩ := d.lease.release owner d.leases
  cases released with
  | error f => exact ⟨rfl, rfl⟩
  | ok u => exact ⟨rfl, rfl⟩

/-- The lease is given back after a dry run as after the real one. -/
theorem Rehearses.finishing {real dry : Desk} {yields : List Candidate} {processed : Nat}
    (h : Rehearses d real dry yields processed) (owner : String) (report : RunReport) :
    (dry.finishing owner report).1 = (real.finishing owner report).1 ∧
      Rehearses d (real.finishing owner report).2 (dry.finishing owner report).2 yields processed := by
  have hregister (e : Desk) : (e.finishing owner report).2.register = e.register := by
    unfold Desk.finishing
    split <;> rfl
  obtain ⟨⟨g, audit, rfl⟩, hsettings, hfaults, hcomplaints, hlogs, hwritten⟩ := h
  obtain ⟨hreport, hdesk⟩ := @finishing_shadow real owner report g audit
  refine ⟨hreport, ⟨g, audit, hdesk⟩, ?_, ?_, ?_, ?_, ?_⟩
  · rw [hregister, hregister]
    exact hsettings
  · rw [hregister]
    exact hfaults
  · rw [hregister]
    exact hcomplaints
  · rw [hregister]
    exact hlogs
  · rw [hdesk]
    exact hwritten

theorem yields_of_refused
    (hheld : (d.lease.acquire (freshOwner d.leases) d.now d.leases).1 ≠ .ok true) :
    d.yields = [] := by
  unfold yields
  split
  next hgranted _ => exact absurd hgranted hheld
  next => rfl

theorem run_shadow_of_refused
    (hheld : (d.lease.acquire (freshOwner d.leases) d.now d.leases).1 ≠ .ok true) :
    (d.shadow g).run.1 = d.run.1 ∧ (d.shadow g).run.2 = d.run.2.shadow g := by
  have hacquire : (d.shadow g).lease.acquire (freshOwner (d.shadow g).leases) (d.shadow g).now
      (d.shadow g).leases = d.lease.acquire (freshOwner d.leases) d.now d.leases := rfl
  unfold run
  dsimp only
  rw [hacquire]
  generalize d.lease.acquire (freshOwner d.leases) d.now d.leases = acquired at hheld ⊢
  obtain ⟨held, lease, leases⟩ := acquired
  match held with
  | .error f => exact ⟨rfl, rfl⟩
  | .ok false => exact ⟨rfl, rfl⟩
  | .ok true => exact absurd rfl hheld

theorem run_foretold {report : RunReport} (h : d.run.1 = .ok report)
    (herrors : report.counts.errors = 0) :
    (d.shadow d.register).run.1 = .ok report ∧ (d.shadow d.register).yields = d.yields ∧
      Rehearses d d.run.2 (d.shadow d.register).run.2 d.yields report.counts.processed := by
  have hacquire : (d.shadow d.register).lease.acquire (freshOwner (d.shadow d.register).leases)
      (d.shadow d.register).now (d.shadow d.register).leases =
        d.lease.acquire (freshOwner d.leases) d.now d.leases := rfl
  by_cases hheld : (d.lease.acquire (freshOwner d.leases) d.now d.leases).1 = .ok true
  · have hheld' := hheld
    rw [← hacquire] at hheld'
    rw [run_eq_finishing hheld] at h ⊢
    rw [run_eq_finishing hheld']
    unfold yields
    rw [hheld, hheld']
    have howner : freshOwner (d.shadow d.register).leases = freshOwner d.leases := rfl
    have hnow : (d.shadow d.register).now = d.now := rfl
    have hholding : (d.shadow d.register).holding = d.holding.shadow d.holding.register := rfl
    have hrules' : (d.shadow d.register).rules = d.rules := rfl
    have hpath : (d.shadow d.register).rulesPath = d.rulesPath := rfl
    rw [howner, hnow, hholding, hrules', hpath]
    cases hrules : d.rules with
    | error f =>
      rw [hrules] at h
      dsimp only at h ⊢
      obtain ⟨hreport, hleft⟩ := (d.holding.rehearses_idle []).finishing (freshOwner d.leases)
        { RunReport.start d.now with error := some (f.message d.rulesPath) }
      rw [hreport, counts_finishing h]
      exact ⟨h, rfl, hleft.rest, hleft.settings, hleft.faults, hleft.complaints, hleft.logs,
        hleft.written⟩
    | ok c =>
      rw [hrules] at h
      dsimp only at h ⊢
      have hcounts := counts_finishing h
      obtain ⟨hreport, hyields, hleft⟩ := @work_foretold c d.holding (.start d.now) rfl
        (by rw [← hcounts]; exact herrors)
      obtain ⟨hfinished, hleft'⟩ := hleft.finishing (freshOwner d.leases)
        (d.holding.work c (.start d.now)).1
      rw [hreport, hyields, hfinished, hcounts]
      exact ⟨h, rfl, hleft'.rest, hleft'.settings, hleft'.faults, hleft'.complaints, hleft'.logs,
        hleft'.written⟩
  · have hheld' := hheld
    rw [← hacquire] at hheld'
    obtain ⟨hreport, hdesk⟩ := run_shadow_of_refused hheld
    have hleft := d.holding.rehearses_idle []
    rw [hreport, hdesk, yields_of_refused hheld, yields_of_refused hheld', (run_of_refused hheld).2,
      counts_of_refused hheld h]
    exact ⟨h, rfl, hleft.rest, hleft.settings, hleft.faults, hleft.complaints, hleft.logs,
      hleft.written⟩

/-- A dry run that starts where a real run enters every fault it has to enter gives out the same
winners and reports the same counts, the same outcome and the same checkpoint. It leaves the timers
and the settings that the real run leaves, and the faults, complaints and statuses as they were, and
for each winner it counts as processed it writes down what would have been entered. -/
theorem dry_run_foretells (d : Desk) {report : RunReport}
    (h : ({ d with dryRun := false } : Desk).run.1 = .ok report) (herrors : report.counts.errors = 0) :
    let real : Desk := { d with dryRun := false }
    let dry : Desk := { d with dryRun := true }
    dry.run.1 = .ok report ∧ dry.yields = real.yields ∧
      dry.run.2.timers = real.run.2.timers ∧
      dry.run.2.register.settings = real.run.2.register.settings ∧
      (dry.run.2.register.faults = d.register.faults ∧
        dry.run.2.register.complaints = d.register.complaints ∧
        dry.run.2.register.logs = d.register.logs) ∧
      ∃ (entered : List Candidate) (audit : List AuditRecord), dry.run.2.audit = d.audit ++ audit ∧
        audit.filter (·.kind == .simulated) = entered.map Handled.simulated ∧
        entered.Sublist dry.yields ∧ entered.length = report.counts.processed := by
  intro real dry
  obtain ⟨hreport, hyields, hleft⟩ := @run_foretold real report h herrors
  have hdry : real.shadow real.register = dry := rfl
  rw [hdry] at hreport hyields hleft
  have htimers : dry.run.2.timers = real.run.2.timers := by
    obtain ⟨g, audit, hrest⟩ := hleft.rest
    rw [hrest]
    rfl
  refine ⟨hreport, hyields, htimers, hleft.settings,
    ⟨hleft.faults, hleft.complaints, hleft.logs⟩, ?_⟩
  rw [hyields]
  exact hleft.written

/-- The real run enters the silence of a unit, and the dry run writes it down. -/
theorem silentDesk_dry :
    ∃ report, ({ silentDesk with dryRun := false } : Desk).run.1 = .ok report ∧
      report.counts = ⟨1, 0, 0, 0, 1⟩ ∧
      ({ silentDesk with dryRun := true } : Desk).run.1 = .ok report ∧
      ({ silentDesk with dryRun := true } : Desk).run.2.register.complaints.length = 0 ∧
      (({ silentDesk with dryRun := true } : Desk).run.2.audit.filter
        (·.kind == .simulated)).length = 1 := by
  have hcounts : ({ silentDesk with dryRun := false } : Desk).run.1.toOption.map (·.counts) =
      some ⟨1, 0, 0, 0, 1⟩ := by decide +kernel
  cases hrun : ({ silentDesk with dryRun := false } : Desk).run.1 with
  | error f =>
    rw [hrun] at hcounts
    cases hcounts
  | ok report =>
    rw [hrun] at hcounts
    have hreport : report.counts = ⟨1, 0, 0, 0, 1⟩ := Option.some.inj hcounts
    obtain ⟨hdry, -, -, -, ⟨-, hcomplaints, -⟩, entered, audit, haudit, hwritten, -, hentered⟩ :=
      silentDesk.dry_run_foretells hrun (by rw [hreport])
    refine ⟨report, rfl, hreport, hdry, by rw [hcomplaints]; rfl, ?_⟩
    have hnone : silentDesk.audit = [] := rfl
    rw [haudit, hnone, List.nil_append, hwritten, List.length_map, hentered, hreport]

end Desk

end FaultDesk
