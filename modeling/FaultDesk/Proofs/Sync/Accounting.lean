import FaultDesk.Proofs.Selection.Completion
import FaultDesk.Proofs.Sync.ControlState

/-!
The accounts of a run. Every winner comes to one end and is counted once, and no key comes twice,
since a selector gives out no key twice; so what is entered, what is looked up and what is written
down can be told from the counts, whichever look-ups and entries fail.
-/

namespace FaultDesk

/-- The keys of the winners that have been entered, those among them that could not be. -/
def keysEntered (calls : List Called) : List (String × String) :=
  (calls.filterMap (·.call.entered?)).map Candidate.key

/-- The keys at which an open incident has been found, each with the incident. -/
def keysStopped (calls : List Called) : List ((String × String) × Incident) :=
  calls.filterMap (·.call.stopped?)

theorem keysEntered_append (calls more : List Called) :
    keysEntered (calls ++ more) = keysEntered calls ++ keysEntered more := by
  unfold keysEntered
  rw [List.filterMap_append, List.map_append]

theorem keysStopped_append (calls more : List Called) :
    keysStopped (calls ++ more) = keysStopped calls ++ keysStopped more := List.filterMap_append

/-- What has been handled agrees with the calls that have been made. -/
structure Balanced (simulate : Bool) (h : Handled) (calls : List Called) : Prop where
  total : h.counts.candidates = h.counts.processed + h.counts.duplicates + h.counts.errors
  once : h.counts.batchSuppressed = 0
  nodup : (keysEntered calls).Nodup
  entered : (keysEntered calls).length =
    if simulate then 0 else h.counts.processed + h.counts.errors
  entered_known : keysEntered calls ⊆ h.keys
  stopped_known : ∀ x ∈ keysStopped calls, x.1 ∈ h.keys
  apart : ∀ x ∈ keysStopped calls, x.1 ∉ keysEntered calls
  written : ∃ stopped : List (Candidate × Incident), stopped.length = h.counts.duplicates ∧
    (stopped.map fun x => (x.1.key, x.2)) = keysStopped calls ∧
    h.audit.filter (·.kind == .skipped) = stopped.map fun x => ⟨.skipped, x.1.suppression x.2⟩

namespace Balanced

variable {simulate : Bool} {h : Handled} {calls : List Called} {w : Candidate}
  {raised : Option Failure}

theorem none (simulate : Bool) : Balanced simulate .none [] where
  total := rfl
  once := rfl
  nodup := List.nodup_nil
  entered := by cases simulate <;> rfl
  entered_known := List.nil_subset _
  stopped_known := by simp [keysStopped]
  apart := by simp [keysStopped]
  written := ⟨[], rfl, rfl, rfl⟩

/-- A call that is neither an entry nor a look-up that finds an open incident is not in the
accounts. -/
theorem noted {call : Call} (hb : Balanced simulate h calls) (hentered : call.entered? = .none)
    (hstopped : call.stopped? = .none) : Balanced simulate h (calls ++ [⟨call, raised⟩]) := by
  have hkeys : keysEntered (calls ++ [⟨call, raised⟩]) = keysEntered calls := by
    rw [keysEntered_append]
    simp [keysEntered, hentered]
  have hstops : keysStopped (calls ++ [⟨call, raised⟩]) = keysStopped calls := by
    rw [keysStopped_append]
    simp [keysStopped, hstopped]
  obtain ⟨htotal, honce, hnodup, hcount, hknown, hstoppedKnown, hapart, hwritten⟩ := hb
  rw [← hkeys] at hnodup hcount hknown
  rw [← hstops] at hstoppedKnown hwritten
  exact ⟨htotal, honce, hnodup, hcount, hknown, hstoppedKnown, by rwa [hkeys, hstops], hwritten⟩

/-- A winner of a new key is stopped by an open incident. -/
theorem stop (hb : Balanced simulate h calls) (hnew : w.key ∉ h.keys) (i : Incident) :
    Balanced simulate
      { counts := { h.counts with
          candidates := h.counts.candidates + 1, duplicates := h.counts.duplicates + 1 }
        keys := w.key :: h.keys
        audit := h.audit ++ [⟨.skipped, w.suppression i⟩] }
      (calls ++ [⟨.find w.unit w.tag (some i), raised⟩]) := by
  have hkeys : keysEntered (calls ++ [⟨.find w.unit w.tag (some i), raised⟩]) =
      keysEntered calls := by
    rw [keysEntered_append]
    exact List.append_nil _
  have hstops : keysStopped (calls ++ [⟨.find w.unit w.tag (some i), raised⟩]) =
      keysStopped calls ++ [(w.key, i)] := keysStopped_append ..
  obtain ⟨stopped, hlength, hmap, haudit⟩ := hb.written
  refine ⟨?_, hb.once, ?_, ?_, ?_, ?_, ?_, stopped ++ [(w, i)], ?_, ?_, ?_⟩
  · have htotal := hb.total
    dsimp only
    omega
  · rw [hkeys]
    exact hb.nodup
  · rw [hkeys]
    exact hb.entered
  · rw [hkeys]
    exact List.Subset.trans hb.entered_known (List.subset_cons_self _ _)
  · rw [hstops]
    intro x hx
    rcases List.mem_append.mp hx with hx | hx
    · exact List.mem_cons_of_mem _ (hb.stopped_known x hx)
    · rw [List.mem_singleton.mp hx]
      exact List.mem_cons_self
  · rw [hstops, hkeys]
    intro x hx
    rcases List.mem_append.mp hx with hx | hx
    · exact hb.apart x hx
    · rw [List.mem_singleton.mp hx]
      exact fun hmem => hnew (hb.entered_known hmem)
  · rw [List.length_append, hlength]
    rfl
  · rw [hstops, List.map_append, hmap]
    rfl
  · rw [List.filter_append, List.map_append, haudit]
    rfl

/-- A winner of a new key is written down in a simulation. -/
theorem simulated (hb : Balanced true h calls) (w : Candidate) :
    Balanced true
      { counts := { h.counts with
          candidates := h.counts.candidates + 1, processed := h.counts.processed + 1 }
        keys := w.key :: h.keys
        audit := h.audit ++ [Handled.simulated w] } calls := by
  obtain ⟨stopped, hlength, hmap, haudit⟩ := hb.written
  refine ⟨?_, hb.once, hb.nodup, hb.entered, ?_, ?_, hb.apart, stopped, hlength, hmap, ?_⟩
  · have htotal := hb.total
    dsimp only
    omega
  · exact List.Subset.trans hb.entered_known (List.subset_cons_self _ _)
  · exact fun x hx => List.mem_cons_of_mem _ (hb.stopped_known x hx)
  · rw [List.filter_append, haudit]
    exact List.append_nil _

/-- A winner of a new key is entered, or cannot be. -/
theorem enter (hb : Balanced false h calls) (hnew : w.key ∉ h.keys) {counts : RunCounts}
    (htotal : counts.candidates = counts.processed + counts.duplicates + counts.errors)
    (honce : counts.batchSuppressed = h.counts.batchSuppressed)
    (hduplicates : counts.duplicates = h.counts.duplicates)
    (hcount : counts.processed + counts.errors = h.counts.processed + h.counts.errors + 1) :
    Balanced false ⟨counts, w.key :: h.keys, h.audit⟩ (calls ++ [⟨.enter w, raised⟩]) := by
  have hkeys : keysEntered (calls ++ [⟨.enter w, raised⟩]) = keysEntered calls ++ [w.key] :=
    keysEntered_append ..
  have hstops : keysStopped (calls ++ [⟨.enter w, raised⟩]) = keysStopped calls := by
    rw [keysStopped_append]
    exact List.append_nil _
  obtain ⟨stopped, hlength, hmap, haudit⟩ := hb.written
  refine ⟨htotal, honce.trans hb.once, ?_, ?_, ?_, ?_, ?_, stopped, hlength.trans hduplicates.symm,
    by rw [hstops, hmap], haudit⟩
  · rw [hkeys]
    refine List.nodup_append.mpr ⟨hb.nodup, List.nodup_singleton _, ?_⟩
    intro key hkey key' hkey' hsame
    rw [List.mem_singleton.mp hkey'] at hsame
    exact hnew (hsame ▸ hb.entered_known hkey)
  · have hentered := hb.entered
    rw [hkeys, List.length_append]
    simp only [Bool.false_eq_true, if_false, List.length_singleton] at hentered ⊢
    omega
  · rw [hkeys]
    intro key hkey
    rcases List.mem_append.mp hkey with hkey | hkey
    · exact List.mem_cons_of_mem _ (hb.entered_known hkey)
    · rw [List.mem_singleton.mp hkey]
      exact List.mem_cons_self
  · rw [hstops]
    exact fun x hx => List.mem_cons_of_mem _ (hb.stopped_known x hx)
  · rw [hstops, hkeys]
    intro x hx hmem
    rcases List.mem_append.mp hmem with hmem | hmem
    · exact hb.apart x hx hmem
    · exact hnew (List.mem_singleton.mp hmem ▸ hb.stopped_known x hx)

end Balanced

/-- The accounts balance, and all keys that have come were given out. -/
structure InBalance (simulate : Bool) (r : Run) (calls : List Called) : Prop where
  balanced : Balanced simulate r.handled calls
  given : r.handled.keys ⊆ r.given

namespace InBalance

variable {simulate : Bool} {r : Run} {calls : List Called} {raised : Option Failure}

theorem noted {call : Call} (h : InBalance simulate r calls) (hentered : call.entered? = none)
    (hstopped : call.stopped? = none) : InBalance simulate r (calls ++ [⟨call, raised⟩]) :=
  ⟨h.balanced.noted hentered hstopped, h.given⟩

end InBalance

namespace Working

variable {σ α β : Type} {simulate : Bool}

/-- Work that keeps the accounts. -/
def Accounts (simulate : Bool) (work : Working σ α) : Prop :=
  ∀ s, InBalance simulate s.run s.calls →
    InBalance simulate (work.outcome s).2.run (work.outcome s).2.calls

theorem Accounts.bind {work : Working σ α} {f : α → Working σ β} (hwork : work.Accounts simulate)
    (hf : ∀ a, (f a).Accounts simulate) : (work >>= f).Accounts simulate := by
  intro s hs
  have hdone := hwork s hs
  rw [outcome_bind]
  generalize work.outcome s = done at hdone ⊢
  obtain ⟨result, t⟩ := done
  cases result with
  | error e => exact hdone
  | ok a => exact hf a t hdone

theorem accounts_update {f : Course σ → Course σ}
    (h : ∀ s, InBalance simulate s.run s.calls → InBalance simulate (f s).run (f s).calls) :
    (update f).Accounts simulate := h

theorem accounts_ask {call : Call} (hentered : call.entered? = none) (hstopped : call.stopped? = none)
    (service : Serving σ α) : (ask call service).Accounts simulate :=
  fun _ hs => hs.noted hentered hstopped

theorem accounts_attempt {call : Call} (hentered : call.entered? = none)
    (hstopped : call.stopped? = none) (service : Serving σ (List Sample)) :
    (attempt call service).Accounts simulate := fun _ hs => hs.noted hentered hstopped

theorem accounts_renew : (renew : Working σ Unit).Accounts simulate := fun _ hs => hs.noted rfl rfl

theorem accounts_close (broken : Option Failure) :
    (close broken : Working σ Unit).Accounts simulate := by
  intro s hs
  cases broken with
  | none => exact hs
  | some f => exact hs.noted rfl rfl

end Working

namespace Services

open Working

variable {σ : Type} (p : Services σ) (c : Config) (simulate : Bool)

theorem accounts_judge (b : Block) : (p.judge c b).Accounts simulate := by
  intro s hs
  unfold judge outcome
  dsimp only
  split
  next => exact (hs.noted rfl rfl).noted rfl rfl
  next => exact hs.noted rfl rfl

/-- Whatever a look-up has found and however the entry ends, the accounts balance again when a winner of
a new key has been settled. -/
theorem balanced_settle {looked : Except Failure (Option Incident) × Course σ} {w : Candidate}
    {calls : List Called} {raised : Option Failure} (hnew : w.key ∉ looked.2.run.handled.keys)
    (hb : Balanced simulate looked.2.run.handled calls)
    (hcalls : looked.2.calls =
      calls ++ [⟨.find w.unit w.tag (openIncident? (closedSet c.closedStatuses) looked.1), raised⟩]) :
    Balanced simulate (p.settle c simulate looked w).run.handled
        (p.settle c simulate looked w).calls ∧
      (p.settle c simulate looked w).run.handled.keys = w.key :: looked.2.run.handled.keys ∧
      (p.settle c simulate looked w).run.given = looked.2.run.given := by
  obtain ⟨found, s⟩ := looked
  unfold settle
  dsimp only at *
  have htotal := hb.total
  rcases Handled.take_ends (p.book c found) (closedSet c.closedStatuses) simulate w
      { s.run.handled with counts.candidates := s.run.handled.counts.candidates + 1 } s with
    ⟨hold, -⟩ | ⟨-, ⟨i, hopen, htaken⟩ | ⟨hnone, ⟨rfl, htaken⟩ |
      ⟨rfl, entered, t, hentered, htaken⟩⟩⟩
  · exact absurd hold hnew
  · have hopen : openIncident? (closedSet c.closedStatuses) found = some i := hopen
    rw [hopen] at hcalls
    rw [htaken]
    refine ⟨?_, rfl, rfl⟩
    change Balanced simulate _ s.calls
    rw [hcalls]
    exact hb.stop hnew i
  · have hnone : openIncident? (closedSet c.closedStatuses) found = none := hnone
    rw [hnone] at hcalls
    rw [htaken]
    refine ⟨?_, rfl, rfl⟩
    change Balanced true _ s.calls
    rw [hcalls]
    exact (hb.noted rfl rfl).simulated w
  · have hnone : openIncident? (closedSet c.closedStatuses) found = none := hnone
    rw [hnone] at hcalls
    rw [htaken]
    obtain ⟨-, rfl⟩ := Prod.mk.inj hentered
    refine ⟨?_, rfl, rfl⟩
    change Balanced false _ (s.calls ++ _)
    rw [hcalls]
    refine (hb.noted rfl rfl).enter hnew ?_ ?_ ?_ ?_
    all_goals cases entered <;> simp only [Bool.false_eq_true, ↓reduceIte] <;> omega

theorem balanced_takeWinner {s : Course σ} {w : Candidate} (hnew : w.key ∉ s.run.handled.keys)
    (hb : Balanced simulate s.run.handled s.calls) :
    Balanced simulate (p.takeWinner c simulate s w).run.handled
        (p.takeWinner c simulate s w).calls ∧
      (p.takeWinner c simulate s w).run.handled.keys = w.key :: s.run.handled.keys ∧
      (p.takeWinner c simulate s w).run.given = s.run.given := by
  unfold takeWinner
  rw [if_neg (by simpa using hnew)]
  exact p.balanced_settle c simulate hnew hb rfl

/-- Winners whose keys are new and different keep the accounts. -/
theorem balanced_winners {ws : List Candidate} {s : Course σ} (hnodup : (ws.map Candidate.key).Nodup)
    (hnew : ∀ w ∈ ws, w.key ∉ s.run.handled.keys) (hb : Balanced simulate s.run.handled s.calls) :
    Balanced simulate (ws.foldl (p.takeWinner c simulate) s).run.handled
        (ws.foldl (p.takeWinner c simulate) s).calls ∧
      (ws.foldl (p.takeWinner c simulate) s).run.handled.keys =
        (ws.map Candidate.key).reverse ++ s.run.handled.keys ∧
      (ws.foldl (p.takeWinner c simulate) s).run.given = s.run.given := by
  induction ws generalizing s with
  | nil => exact ⟨hb, rfl, rfl⟩
  | cons w rest ih =>
    obtain ⟨hfirst, hrest⟩ := List.nodup_cons.mp hnodup
    obtain ⟨hb', hkeys', hgiven'⟩ :=
      p.balanced_takeWinner c simulate (hnew w List.mem_cons_self) hb
    have hnew' : ∀ w' ∈ rest, w'.key ∉ (p.takeWinner c simulate s w).run.handled.keys := by
      intro w' hw'
      rw [hkeys', List.mem_cons, not_or]
      exact ⟨fun hsame => hfirst (hsame ▸ List.mem_map_of_mem hw'),
        hnew w' (List.mem_cons_of_mem _ hw')⟩
    obtain ⟨hb'', hkeys'', hgiven''⟩ := ih hrest hnew' hb'
    refine ⟨hb'', ?_, hgiven''.trans hgiven'⟩
    rw [List.foldl_cons, hkeys'', hkeys', List.map_cons, List.reverse_cons, List.append_assoc]
    rfl

/-- The winners of a block are given out with new keys. -/
theorem accounts_giveOut (winners : List Candidate) {s : Course σ}
    (h : InBalance simulate s.run s.calls) :
    InBalance simulate (p.giveOut c simulate winners s).run
      (p.giveOut c simulate winners s).calls := by
  obtain ⟨-, hnodup, hnew, hgiven⟩ := Selector.giveOut_spec s.run.given winners
  -- keys that have come were given out, so a key that is given out now has not come
  obtain ⟨hb, hkeys, hsame⟩ := p.balanced_winners c simulate
    (s := { s with run.given := (Selector.giveOut s.run.given none winners).2.1 }) hnodup
    (fun w hw hmem => hnew w hw (h.given hmem)) h.balanced
  have hout : p.giveOut c simulate winners s =
      (Selector.giveOut s.run.given none winners).1.foldl (p.takeWinner c simulate)
        { s with run.given := (Selector.giveOut s.run.given none winners).2.1 } := rfl
  rw [hout]
  refine ⟨hb, fun key hkey => ?_⟩
  rw [hkeys] at hkey
  rw [hsame]
  change key ∈ (Selector.giveOut s.run.given none winners).2.1
  rw [hgiven]
  rcases List.mem_append.mp hkey with hkey | hkey
  · exact List.mem_append_left _ hkey
  · exact List.mem_append_right _ (h.given hkey)

theorem accounts_takeBlock (b : Block) (next : Option Block) :
    (p.takeBlock c simulate b next).Accounts simulate :=
  .bind (accounts_update fun _ hs => ⟨hs.balanced, hs.given⟩) fun _ => .bind accounts_renew fun _ =>
    .bind (p.accounts_judge c simulate b) fun winners =>
    accounts_update fun _ hs => p.accounts_giveOut c simulate winners hs

theorem accounts_takeBlocks (bs : List (Block × Option Block)) :
    (p.takeBlocks c simulate bs).Accounts simulate := by
  induction bs with
  | nil => exact accounts_update fun _ hs => ⟨hs.balanced, hs.given⟩
  | cons entry rest ih => exact (p.accounts_takeBlock c simulate entry.1 entry.2).bind fun _ => ih

theorem accounts_gather : (p.gather simulate).Accounts simulate :=
  .bind (accounts_ask rfl rfl _) fun c => .bind (accounts_ask rfl rfl _) fun _ =>
    .bind (accounts_ask rfl rfl _) fun _ => .bind (accounts_ask rfl rfl _) fun _ =>
    .bind (accounts_update fun _ hs => hs) fun _ => .bind (accounts_attempt rfl rfl _) fun _ =>
    .bind (accounts_attempt rfl rfl _) fun _ => .bind (accounts_ask rfl rfl _) fun read =>
    .bind (p.accounts_takeBlocks c simulate _) fun _ => accounts_close read.2

theorem accounts_conclude : p.conclude.Accounts simulate := by
  intro s hs
  unfold conclude
  rw [outcome_inspect_bind]
  cases s.run.latest with
  | none => exact hs
  | some latest =>
    dsimp only
    rw [outcome_ask_bind]
    rcases p.move latest s.world with ⟨given, world⟩
    cases given with
    | error e => exact hs.noted rfl rfl
    | ok u => exact hs.noted rfl rfl

theorem accounts_work : (p.work simulate).Accounts simulate :=
  .bind (p.accounts_gather simulate) fun _ => p.accounts_conclude simulate

end Services

namespace Job

variable {σ : Type} {j after : Job σ} {p : Services σ} {owner : String} {report : RunReport}
  {calls : List Called}

/-- A run that ends in a report has handled what its counts and its audit records say. -/
theorem balanced_run (h : j.run p owner = (.ok report, calls, after)) :
    ∃ handled : Handled, Balanced j.simulates handled calls ∧ report.counts = handled.counts ∧
      after.audit = j.audit ++ handled.audit := by
  unfold run at h
  dsimp only at h
  split at h
  next => cases h
  next =>
    cases h
    exact ⟨.none, .none _, rfl, (List.append_nil _).symm⟩
  next =>
    have hstart : InBalance j.simulates (j.start owner).run (j.start owner).calls :=
      ⟨.none _, List.nil_subset _⟩
    have hworked := p.accounts_work j.simulates (j.start owner) hstart
    rw [show (p.work j.simulates).outcome (j.start owner) = j.work p owner from rfl] at hworked
    split at h
    next => cases h
    next =>
      cases h
      exact ⟨_, hworked.balanced, rfl, rfl⟩

/-- The accounts of a run. The faults it has found were entered, stopped or not to be entered, and none
of them came twice. No key is entered twice, and none at which an open incident was found; outside a
simulation so many are entered as the counts say, and in a simulation none. Every fault that was
stopped has one audit record, which names the incident that the look-up found. -/
theorem run_accounts (h : j.run p owner = (.ok report, calls, after)) :
    report.counts.candidates =
        report.counts.processed + report.counts.duplicates + report.counts.errors ∧
      report.counts.batchSuppressed = 0 ∧
      (keysEntered calls).Nodup ∧
      (keysEntered calls).length =
        (if j.simulates then 0 else report.counts.processed + report.counts.errors) ∧
      (∀ x ∈ keysStopped calls, x.1 ∉ keysEntered calls) ∧
      ∃ (stopped : List (Candidate × Incident)) (audit : List AuditRecord),
        stopped.length = report.counts.duplicates ∧
        (stopped.map fun x => (x.1.key, x.2)) = keysStopped calls ∧
        after.audit = j.audit ++ audit ∧
        audit.filter (·.kind == .skipped) =
          stopped.map fun x => ⟨.skipped, x.1.suppression x.2⟩ := by
  obtain ⟨handled, hb, hcounts, haudit⟩ := balanced_run h
  obtain ⟨stopped, hlength, hmap, hwritten⟩ := hb.written
  rw [hcounts]
  exact ⟨hb.total, hb.once, hb.nodup, hb.entered, hb.apart, stopped, _, hlength, hmap, haudit,
    hwritten⟩

/-- Of three faults one is entered, one is stopped by an open complaint, and one cannot be entered. -/
theorem lampJob_accounts :
    ∃ report calls after,
      lampJob.run (lampServices none) "first" = (.ok report, calls, after) ∧
        report.counts = ⟨1, 1, 0, 1, 3⟩ ∧ (keysEntered calls).Nodup ∧
        (keysEntered calls).length = 2 ∧ ("102", "Tag1") ∉ keysEntered calls ∧
        (after.audit.filter (·.kind == .skipped)).length = 1 := by
  have hcounts : (lampJob.run (lampServices none) "first").1.toOption.map (·.counts) =
      some ⟨1, 1, 0, 1, 3⟩ := by decide +kernel
  rcases hrun : lampJob.run (lampServices none) "first" with ⟨ended, calls, after⟩
  rw [hrun] at hcounts
  cases ended with
  | error f => cases hcounts
  | ok report =>
    have hreport : report.counts = ⟨1, 1, 0, 1, 3⟩ := Option.some.inj hcounts
    obtain ⟨-, -, hnodup, hlength, hapart, stopped, audit, hstopped, -, haudit, hwritten⟩ :=
      run_accounts hrun
    have hfound : keysStopped calls = [(("102", "Tag1"), ⟨7, some "0007", some "REGISTERED"⟩)] := by
      rw [show calls = (lampJob.run (lampServices none) "first").2.1 by rw [hrun]]
      decide +kernel
    refine ⟨report, calls, after, rfl, hreport, hnodup, ?_, ?_, ?_⟩
    · rw [hlength, hreport]
      rfl
    · exact hapart _ (hfound ▸ List.mem_singleton_self _)
    · rw [haudit, show lampJob.audit = [] from rfl, List.nil_append, hwritten, List.length_map,
        hstopped, hreport]

end Job

end FaultDesk
