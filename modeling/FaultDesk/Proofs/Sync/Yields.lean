import FaultDesk.Proofs.Source.Detectors
import FaultDesk.Proofs.Sync.Streams
import FaultDesk.Proofs.Sync.Passage

/-!
What a run yields: the winners of its blocks, one after the other, as many as its report counts. A
winner that is not from the stream is from one of the two detectors, and no older and no younger
than the detector looks for, whatever the duration of the master rule that has won with it.
-/

namespace FaultDesk

namespace Desk

variable {c : Config} {sel : Selector} {b : Block} {next : Option Block} {r : Run} {d : Desk}
  {w : Candidate}

/-! ## The winners of a run -/

/-- The winners a block gives out. -/
def blockYields (sel : Selector) (b : Block) (r : Run) (d : Desk) : List Candidate :=
  match (d.lease.renew d.now d.leases).1, (sel.flush b.unit b.samples d.timers).winners with
  | .ok _, .ok cs => (Selector.giveOut r.given none cs).1
  | _, _ => []

/-- The winners blocks give out, until one fails. -/
def blocksYield (c : Config) (sel : Selector) : List (Block × Option Block) → Run → Desk →
    List Candidate
  | [], _, _ => []
  | (b, next) :: rest, r, d =>
    blockYields sel b r d ++
      match takeBlock c sel b next r d with
      | (some _, _, _) => []
      | (none, r, d) => blocksYield c sel rest r d

/-- The winners the work of a run gives out. -/
def workYields (d : Desk) (c : Config) : List Candidate :=
  let reader := SourceReader.ofConfig c
  match Checkpoint.get d.register d.runKey d.lookback d.now with
  | .error _ => []
  | .ok since =>
    match d.stream reader since with
    | .error _ => []
    | .ok (rows, broken) =>
      blocksYield c (d.selector c)
        (completed (streamSamples rows) (d.computedSamples reader) broken.isSome) .start d

/-- The winners a run gives out. -/
def yields (d : Desk) : List Candidate :=
  match (d.lease.acquire (freshOwner d.leases) d.now d.leases).1, d.rules with
  | .ok true, .ok c => d.holding.workYields c
  | _, _ => []

theorem candidates_take {σ : Type} (book : IncidentBook σ) (closed : List String) (simulate : Bool)
    (w : Candidate) (h : Handled) (s : σ) :
    (h.take book closed simulate w s).1.counts.candidates = h.counts.candidates := by
  unfold Handled.take
  split
  next => rfl
  next =>
    split
    next => rfl
    next =>
      split
      next => rfl
      next => split <;> rfl

theorem candidates_takeWinner (state : Run × Desk) (w : Candidate) :
    (takeWinner c state w).1.handled.counts.candidates =
      state.1.handled.counts.candidates + 1 := by
  obtain ⟨r, d⟩ := state
  exact candidates_take ..

theorem candidates_winners (ws : List Candidate) (state : Run × Desk) :
    (ws.foldl (takeWinner c) state).1.handled.counts.candidates =
      state.1.handled.counts.candidates + ws.length := by
  induction ws generalizing state with
  | nil => rfl
  | cons w rest ih =>
    rw [List.foldl_cons, ih, candidates_takeWinner, List.length_cons]
    omega

theorem candidates_takeBlock :
    (takeBlock c sel b next r d).2.1.handled.counts.candidates =
      r.handled.counts.candidates + (blockYields sel b r d).length := by
  unfold takeBlock blockYields
  dsimp only
  rcases d.lease.renew d.now d.leases with ⟨renewed, lease, leases⟩
  cases renewed with
  | error e => rfl
  | ok held =>
    dsimp only
    cases (sel.flush b.unit b.samples d.timers).winners with
    | error e => rfl
    | ok cs => exact candidates_winners ..

theorem candidates_takeBlocks (bs : List (Block × Option Block)) (r : Run) (d : Desk) :
    (takeBlocks c sel bs r d).2.1.handled.counts.candidates =
      r.handled.counts.candidates + (blocksYield c sel bs r d).length := by
  induction bs generalizing r d with
  | nil => rfl
  | cons entry rest ih =>
    obtain ⟨b, next⟩ := entry
    have hblock := @candidates_takeBlock c sel b next r d
    unfold takeBlocks blocksYield
    generalize takeBlock c sel b next r d = taken at hblock ⊢
    obtain ⟨failure, r', d'⟩ := taken
    rw [List.length_append, ← Nat.add_assoc, ← hblock]
    cases failure with
    | some f => rfl
    | none => exact ih r' d'

theorem candidates_conclude (failure : Option Failure) (report : RunReport) :
    (d.conclude r failure report).1.counts = r.handled.counts := by
  unfold conclude
  dsimp only
  split
  next => rfl
  next => rfl
  next => split <;> rfl

theorem candidates_work {report : RunReport} (hreport : report.counts = .zero) :
    (d.work c report).1.counts.candidates = (d.workYields c).length := by
  unfold work workYields
  dsimp only
  cases Checkpoint.get d.register d.runKey d.lookback d.now with
  | error f => simp [hreport, RunCounts.zero]
  | ok since =>
    dsimp only
    cases d.stream (.ofConfig c) since with
    | error f => simp [hreport, RunCounts.zero]
    | ok read =>
      obtain ⟨rows, broken⟩ := read
      have htaken := @candidates_takeBlocks c (d.selector c)
        (completed (streamSamples rows) (d.computedSamples (.ofConfig c)) broken.isSome) .start d
      dsimp only
      rw [candidates_conclude, streamSamples] at *
      rw [htaken]
      exact Nat.zero_add _

theorem counts_finishing {owner : String} {report given : RunReport}
    (h : (d.finishing owner given).1 = .ok report) : report.counts = given.counts := by
  unfold finishing at h
  rcases hrelease : d.lease.release owner d.leases with ⟨released, lease, leases⟩
  rw [hrelease] at h
  cases released with
  | error f => cases h
  | ok u =>
    cases h
    rfl

theorem counts_of_refused {report : RunReport}
    (hheld : (d.lease.acquire (freshOwner d.leases) d.now d.leases).1 ≠ .ok true)
    (h : d.run.1 = .ok report) : report.counts = .zero := by
  unfold Desk.run at h
  dsimp only at h
  rcases hacquire : d.lease.acquire (freshOwner d.leases) d.now d.leases with ⟨held, lease, leases⟩
  rw [hacquire] at h hheld
  match held with
  | .error f => cases h
  | .ok false =>
    cases h
    rfl
  | .ok true => exact absurd rfl hheld

/-- A report counts what the run yields. -/
theorem candidates_run {report : RunReport} (h : d.run.1 = .ok report) :
    report.counts.candidates = d.yields.length := by
  by_cases hheld : (d.lease.acquire (freshOwner d.leases) d.now d.leases).1 = .ok true
  · rw [run_eq_finishing hheld] at h
    unfold yields
    rw [hheld]
    cases hrules : d.rules with
    | error f =>
      rw [hrules] at h
      rw [counts_finishing h]
      rfl
    | ok c =>
      rw [hrules] at h
      rw [counts_finishing h]
      exact candidates_work rfl
  · rw [counts_of_refused hheld h]
    unfold yields
    split
    next hgranted _ => exact absurd hgranted hheld
    next => rfl

/-! ## Where winners come from -/

theorem mem_of_blockYields (hw : w ∈ blockYields sel b r d) :
    (∃ m : MasterMatch, m.sample ∈ b.samples ∧ w = m.candidate) ∨
      ∃ s ∈ b.samples, w.FoundIn s := by
  unfold blockYields at hw
  split at hw
  next cs _ hflush =>
    have hgiven := (Selector.giveOut_spec r.given cs).1.subset hw
    exact Selector.found_of_flush hflush hgiven
  next => cases hw

theorem mem_of_blocksYield {bs : List (Block × Option Block)} (hw : w ∈ blocksYield c sel bs r d) :
    ∃ b ∈ bs.map (·.1), (∃ m : MasterMatch, m.sample ∈ b.samples ∧ w = m.candidate) ∨
      ∃ s ∈ b.samples, w.FoundIn s := by
  induction bs generalizing r d with
  | nil => cases hw
  | cons entry rest ih =>
    obtain ⟨b, next⟩ := entry
    unfold blocksYield at hw
    rcases List.mem_append.mp hw with hw | hw
    · exact ⟨b, List.mem_cons_self, mem_of_blockYields hw⟩
    · split at hw
      next => cases hw
      next =>
        obtain ⟨b', hb', hfrom⟩ := ih hw
        exact ⟨b', List.mem_cons_of_mem _ hb', hfrom⟩

theorem map_fst_followed (bs : List Block) : (followed bs).map (·.1) = bs := by
  induction bs with
  | nil => rfl
  | cons b rest ih => rw [followed, List.map_cons, ih]

/-- The blocks that are complete are blocks of the stream. -/
theorem mem_blocks_of_completed {stream computed : List Sample} {breaks : Bool}
    (hb : b ∈ (completed stream computed breaks).map (·.1)) : b ∈ blocks stream computed := by
  unfold completed at hb
  split at hb
  next =>
    rw [List.map_dropLast, map_fst_followed] at hb
    exact List.mem_append_left _ (List.dropLast_subset _ hb)
  next => rwa [map_fst_followed] at hb

theorem kind_of_mem_streamSamples {reader : SourceReader} {since : Instant}
    {rows : List (Row × List Sample)} {broken : Option (Row × Failure)} {s : Sample}
    (h : d.stream reader since = .ok (rows, broken)) (hs : s ∈ streamSamples rows) :
    s.kind = .unified := by
  obtain ⟨read, -, h⟩ := bind_eq_ok_iff.mp h
  obtain ⟨⟨row, ss⟩, hrow, hs⟩ := List.mem_flatMap.mp hs
  have hrows : (reader.explodeRows read).1 = rows := congrArg Prod.fst (Except.ok.inj h)
  rw [← hrows] at hrow
  exact Row.kind_of_mem_explode (SourceReader.exploded_of_mem_explodeRows hrow) hs

/-- Whatever the work of a run yields, a master rule or an ordinary rule has found in a sample of the
stream or in one that has been worked out. -/
theorem mem_of_workYields (hw : w ∈ d.workYields c) :
    ∃ s, (s.kind = .unified ∨ s ∈ d.computedSamples (.ofConfig c)) ∧
      ((∃ m : MasterMatch, m.sample = s ∧ w = m.candidate) ∨ w.FoundIn s) := by
  unfold workYields at hw
  dsimp only at hw
  split at hw
  next => cases hw
  next since _ =>
    split at hw
    next => cases hw
    next rows broken hstream =>
      obtain ⟨b, hb, hfrom⟩ := mem_of_blocksYield hw
      have hblock := mem_blocks_of_completed hb
      have horigin {s : Sample} (hs : s ∈ b.samples) :
          s.kind = .unified ∨ s ∈ d.computedSamples (.ofConfig c) := by
        refine (mem_of_mem_samples _ _ hblock hs).imp_left fun hs => ?_
        exact kind_of_mem_streamSamples hstream hs
      rcases hfrom with ⟨m, hm, rfl⟩ | ⟨s, hs, hfound⟩
      · exact ⟨m.sample, horigin hm, Or.inl ⟨m, rfl, rfl⟩⟩
      · exact ⟨s, horigin hs, Or.inr hfound⟩

/-- A sample that is worked out is one of a detector's. -/
theorem mem_of_computedSamples {reader : SourceReader} {x : Sample}
    (hx : x ∈ d.computedSamples reader) :
    ∃ D : Detector, ∃ xs, D.find reader d.readings d.now = .ok xs ∧ x ∈ xs := by
  have hgiven {part : SourcePart} {found : Except Failure (List Sample)} {ss : List Sample}
      (h : d.fromPart part found = .ok ss) : found = .ok ss := by
    unfold fromPart at h
    split at h
    next => cases h
    next => exact h
  simp only [computedSamples, List.mem_append] at hx
  rcases hx with hx | hx
  · split at hx
    next ss hss => exact ⟨.communication, ss, hgiven hss, hx⟩
    next => cases hx
  · split at hx
    next ss hss => exact ⟨.power, ss, hgiven hss, hx⟩
    next => cases hx

theorem computed_yield_reported {m : MasterRule}
    (hkept : ∀ t, d.readings.digital = some t → t.Kept) (hrules : d.rules = .ok c)
    (hw : w ∈ d.yields) (hrule : w.rule = .master m) (hkind : w.kind = .computed) :
    ∃ D : Detector, ∃ u x, D.Reports (.ofConfig c) d.readings d.now u x ∧
      w = .ofSample x (.master m) none := by
  have hwork : w ∈ d.holding.workYields c := by
    unfold yields at hw
    split at hw
    next c' _ hc =>
      obtain rfl : c' = c := Except.ok.inj (hc.symm.trans hrules)
      exact hw
    next => cases hw
  obtain ⟨s, horigin, hfrom⟩ := mem_of_workYields hwork
  obtain ⟨hcomputed, hsample⟩ : s.kind = .computed ∧ w = .ofSample s (.master m) none := by
    rcases hfrom with ⟨⟨rule, sample⟩, rfl, rfl⟩ | ⟨r, -, rfl⟩ | ⟨r, stats, rfl⟩
    · obtain rfl : rule = m := AnyRule.master.inj hrule
      exact ⟨hkind, rfl⟩
    · cases hrule
    · cases hrule
  have hextra : s ∈ d.holding.computedSamples (.ofConfig c) := by
    rcases horigin with hunified | hextra
    · rw [hunified] at hcomputed
      cases hcomputed
    · exact hextra
  obtain ⟨D, xs, hfind, hx⟩ := mem_of_computedSamples hextra
  obtain ⟨u, hreports⟩ := Detector.reports hkept hfind hx
  exact ⟨D, u, s, hreports, hsample⟩

/-- A computed sample that a master rule wins with is as old as its detector asks for, whatever the
duration of the rule: a communication fault at least as old as the stale limit, a loss of power at
most as old as the lookback. -/
theorem computed_yield_age {m : MasterRule}
    (hkept : ∀ t, d.readings.digital = some t → t.Kept) (hrules : d.rules = .ok c)
    (hw : w ∈ d.yields) (hrule : w.rule = .master m) (hkind : w.kind = .computed) :
    (∃ u x, Detector.communication.Reports (.ofConfig c) d.readings d.now u x ∧
        w = .ofSample x (.master m) none ∧
        ∃ stale, Span.hours c.computedFaults.communication.staleHours = .ok stale ∧
          stale ≤ d.now - w.time) ∨
      ∃ u x, Detector.power.Reports (.ofConfig c) d.readings d.now u x ∧
        w = .ofSample x (.master m) none ∧
        ∃ lookback, Span.minutes c.computedFaults.power.lookbackMinutes = .ok lookback ∧
          d.now - w.time ≤ lookback := by
  obtain ⟨D, u, x, hreports, rfl⟩ := computed_yield_reported hkept hrules hw hrule hkind
  cases D with
  | communication =>
    obtain ⟨stale, -, hstale, -, -, hold⟩ := hreports.window
    have hage : stale ≤ d.now - x.time := Int.le_sub_left_of_add_le (Int.add_le_of_le_sub_right hold)
    exact Or.inl ⟨u, x, hreports, rfl, stale, hstale, hage⟩
  | power =>
    obtain ⟨lookback, hlookback, hrecent⟩ := hreports.window
    have hage : d.now - x.time ≤ lookback := Int.sub_le_of_sub_le hrecent
    exact Or.inr ⟨u, x, hreports, rfl, lookback, hlookback, hage⟩

/-- A desk at the end of the hundredth day with one record and one master rule, whose stream is
empty. -/
def statusDesk (row : Row) (m : MasterRule) : Desk :=
  { quietDesk with
    now := 100 * Span.day
    lookback := Double.ofNat 0
    rules := .ok { Config.standard with masterRules := [m] }
    readings := statusReadings [row] }

/-- A unit that has been silent for an hour and a half. -/
def silentDesk : Desk := statusDesk (statusRow 90 (.int 0) .null) silence

/-- The units that a desk yields, with the kinds of the samples and how old they are. -/
def yieldAges (d : Desk) : List (String × SourceKind × Span) :=
  d.yields.map fun w => (w.unit, w.kind, d.now - w.time)

/-- Silence of half an hour is found after an hour and a half, since the stale limit is an hour. -/
theorem silentDesk_age :
    (∀ t, silentDesk.readings.digital = some t → t.Kept) ∧
      ∃ w, silentDesk.yields = [w] ∧ w.rule = .master silence ∧ w.kind = .computed ∧
        ∃ stale, Span.hours CommunicationFault.standard.staleHours = .ok stale ∧
          stale ≤ silentDesk.now - w.time := by
  have hkept : ∀ t, silentDesk.readings.digital = some t → t.Kept := by
    intro t ht row hrow
    obtain rfl := Option.some.inj ht
    obtain rfl := List.mem_singleton.mp hrow
    exact ⟨[.int 101, .stamp (.naive (100 * Span.day - 90 * Span.minute)), .int 0, .null], rfl⟩
  have hyields : (silentDesk.yields.map fun w => (w.rule, w.kind, w.time)) =
      [(.master silence, .computed, 100 * Span.day - 90 * Span.minute)] := by decide +kernel
  obtain ⟨w, hsole, hw⟩ := List.map_eq_singleton_iff.mp hyields
  obtain ⟨hrule, hkind, htime⟩ : w.rule = .master silence ∧ w.kind = .computed ∧
      w.time = 100 * Span.day - 90 * Span.minute := by simpa using hw
  have hmem : w ∈ silentDesk.yields := hsole ▸ List.mem_singleton_self w
  refine ⟨hkept, w, hsole, hrule, hkind, ?_⟩
  rcases computed_yield_age hkept rfl hmem hrule hkind with
    ⟨u, x, -, -, hage⟩ | ⟨u, x, -, -, lookback, hlookback, hage⟩
  · exact hage
  -- the lookback is an hour
  · have hhour : (Span.minutes PowerFault.standard.lookbackMinutes).toOption = some Span.hour := by
      decide +kernel
    have hminutes : Span.minutes PowerFault.standard.lookbackMinutes = .ok lookback := hlookback
    rw [hminutes] at hhour
    obtain rfl : lookback = Span.hour := Option.some.inj hhour
    rw [htime] at hage
    exact absurd hage (by decide)

/-- The power of a unit has been off for a minute, and a unit has been silent for an hour and a half,
when rules that ask for half an hour and for three hours win with them. -/
theorem computed_yield_before_duration :
    ((statusDesk (statusRow 1 .null (.int 0)) ⟨.reads "Tag16" 0 30, 1⟩).yieldAges =
        [("101", .computed, Span.minute)] ∧
      ((Rule.reads "Tag16" 0 30).duration.bind (·.span.toOption)) = some (30 * Span.minute)) ∧
    (statusDesk (statusRow 90 (.int 0) .null) ⟨.reads "Tag8" 0 180, 2⟩).yieldAges =
        [("101", .computed, 90 * Span.minute)] ∧
      ((Rule.reads "Tag8" 0 180).duration.bind (·.span.toOption)) = some (180 * Span.minute) := by
  decide +kernel

end Desk

end FaultDesk
