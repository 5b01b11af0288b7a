import FaultDesk.Proofs.Register.OpenComplaints
import FaultDesk.Sync.Desk

/-!
Histories of a desk: runs that follow one another, taken step by step, so that complaints can be
closed from outside between any two steps. In every state of a history at most one complaint of a
unit and tag is open. A whole run is one such history.
-/

namespace FaultDesk

/-! ## One winner -/

theorem openIncident?_congr {closed closed' : List String} (h : ∀ s, s ∈ closed ↔ s ∈ closed')
    (found : Except Failure (Option Incident)) :
    openIncident? closed found = openIncident? closed' found := by
  have hopen (i : Incident) : i.isOpen closed = i.isOpen closed' := by
    simp only [Incident.isOpen, List.contains_eq_mem, h]
  simp only [openIncident?, hopen]

/-- A winner leaves the book alone, or its key is new, no open incident is found, and it is
entered. -/
theorem Handled.take_cases {σ : Type} (book : IncidentBook σ) (closed : List String)
    (simulate : Bool) (w : Candidate) (h : Handled) (s : σ) :
    (h.take book closed simulate w s).2 = s ∨
      h.keys.contains w.key = false ∧ openIncident? closed (book.find s w.unit w.tag) = .none ∧
        (h.take book closed simulate w s).2 = (book.enter s w).2 := by
  unfold Handled.take
  split
  next => exact Or.inl rfl
  next hkey =>
    split
    next => exact Or.inl rfl
    next hnone =>
      split
      next => exact Or.inl rfl
      next =>
        refine Or.inr ⟨by simpa using hkey, hnone, ?_⟩
        split
        next he => rw [he]
        next he => rw [he]

/-- A winner comes to one of four ends: its key has come before, an open incident stops it, it is
written down in a simulation, or it is entered. -/
theorem Handled.take_ends {σ : Type} (book : IncidentBook σ) (closed : List String)
    (simulate : Bool) (w : Candidate) (h : Handled) (s : σ) :
    (w.key ∈ h.keys ∧ h.take book closed simulate w s =
        ({ h with counts.batchSuppressed := h.counts.batchSuppressed + 1 }, s)) ∨
      w.key ∉ h.keys ∧
        ((∃ i, openIncident? closed (book.find s w.unit w.tag) = some i ∧
            h.take book closed simulate w s =
              ({ counts := { h.counts with duplicates := h.counts.duplicates + 1 }
                 keys := w.key :: h.keys
                 audit := h.audit ++ [⟨.skipped, w.suppression i⟩] }, s)) ∨
          openIncident? closed (book.find s w.unit w.tag) = .none ∧
            ((simulate = true ∧ h.take book closed simulate w s =
                ({ counts := { h.counts with processed := h.counts.processed + 1 }
                   keys := w.key :: h.keys
                   audit := h.audit ++ [simulated w] }, s)) ∨
              simulate = false ∧ ∃ entered s', book.enter s w = (entered, s') ∧
                h.take book closed simulate w s =
                  ({ counts := if entered then { h.counts with processed := h.counts.processed + 1 }
                       else { h.counts with errors := h.counts.errors + 1 }
                     keys := w.key :: h.keys
                     audit := h.audit }, s'))) := by
  unfold Handled.take
  by_cases hkey : w.key ∈ h.keys
  · exact Or.inl ⟨hkey, if_pos (by simpa using hkey)⟩
  · rw [if_neg (by simpa using hkey)]
    refine Or.inr ⟨hkey, ?_⟩
    cases openIncident? closed (book.find s w.unit w.tag) with
    | some i => exact Or.inl ⟨i, rfl, rfl⟩
    | none =>
      refine Or.inr ⟨rfl, ?_⟩
      cases simulate with
      | true => exact Or.inl ⟨rfl, rfl⟩
      | false =>
        refine Or.inr ⟨rfl, ?_⟩
        obtain ⟨entered, s'⟩ := book.enter s w
        refine ⟨entered, s', rfl, ?_⟩
        cases entered <;> rfl

/-- Faults are handled alike in two books that find and enter alike. -/
theorem Handled.take_alike {σ τ : Type} {book : IncidentBook σ} {book' : IncidentBook τ}
    {closed : List String} {simulate : Bool} {w : Candidate} {h : Handled} {s : σ} {t : τ}
    {R : σ → τ → Prop} (hst : R s t)
    (hfind : h.keys.contains w.key = false →
      book'.find t w.unit w.tag = book.find s w.unit w.tag)
    (henter : (book'.enter t w).1 = (book.enter s w).1 ∧ R (book.enter s w).2 (book'.enter t w).2) :
    (h.take book' closed simulate w t).1 = (h.take book closed simulate w s).1 ∧
      R (h.take book closed simulate w s).2 (h.take book' closed simulate w t).2 := by
  unfold take
  cases hkey : h.keys.contains w.key with
  | true => exact ⟨rfl, hst⟩
  | false =>
    rw [hfind hkey]
    simp only [Bool.false_eq_true, ↓reduceIte]
    split
    next => exact ⟨rfl, hst⟩
    next =>
      split
      next => exact ⟨rfl, hst⟩
      next =>
        generalize book.enter s w = done at henter
        generalize book'.enter t w = done' at henter
        obtain ⟨entered, s'⟩ := done
        obtain ⟨entered', t'⟩ := done'
        obtain ⟨rfl : entered' = entered, hafter⟩ := henter
        cases entered' <;> exact ⟨rfl, hafter⟩

/-- Entering a fault from a desk leaves the register alone or enters it there. -/
theorem Desk.book_enter (mapping : ComplaintMapping) (d : Desk) (w : Candidate) :
    ((book mapping).enter d w).2.register = d.register ∨
      ((book mapping).enter d w).2.register =
        (d.register.enter ⟨mapping, d.clientId, d.submittedBy⟩ d.now w).2 := by
  unfold book
  dsimp only
  split
  next =>
    refine Or.inr ?_
    split
    next he => rw [he]
    next he => rw [he]
  next => exact Or.inl rfl

/-- What becomes of a winner after a look-up, whatever has happened to the desk since. -/
def Desk.settle (c : Config) (h : Handled) (w : Candidate) (found : Option Incident) (d : Desk) :
    Handled × Desk :=
  Handled.take ⟨fun _ _ _ => .ok found, (book c.complaints).enter⟩ (closedSet c.closedStatuses)
    d.simulates w { h with counts.candidates := h.counts.candidates + 1 } d

/-- Settling a winner leaves the register alone, or its key is new, no open incident was found, and
it is entered. -/
theorem Desk.settle_register (c : Config) (h : Handled) (w : Candidate) (found : Option Incident)
    (d : Desk) :
    (settle c h w found d).2.register = d.register ∨
      h.keys.contains w.key = false ∧
        openIncident? (closedSet c.closedStatuses) (.ok found) = none ∧
        (settle c h w found d).2.register =
          (d.register.enter ⟨c.complaints, d.clientId, d.submittedBy⟩ d.now w).2 := by
  unfold settle
  rcases Handled.take_cases ⟨fun _ _ _ => .ok found, (book c.complaints).enter⟩
      (closedSet c.closedStatuses) d.simulates w
      { h with counts.candidates := h.counts.candidates + 1 } d with
    hsame | ⟨hkey, hnone, hentered⟩
  · exact Or.inl (by rw [hsame])
  · rw [hentered]
    rcases book_enter c.complaints d w with hleft | hentry
    · exact Or.inl hleft
    · exact Or.inr ⟨hkey, hnone, hentry⟩

/-- A run looks up and settles a winner at once. -/
theorem Desk.takeWinner_eq {c : Config} {r : Run} {d : Desk} {w : Candidate}
    {found : Option Incident} (hfind : d.register.find w.unit w.tag = .ok found) :
    takeWinner c (r, d) w =
      ({ r with handled := (settle c r.handled w found d).1 },
        (settle c r.handled w found d).2) := by
  have hbook : (book c.complaints).find d w.unit w.tag = .ok found := hfind
  unfold takeWinner settle Handled.take
  simp only [hbook]

/-! ## Histories -/

/-- Where a desk stands: between runs, in a run that has handled so much, or between the look-up for
a winner and what becomes of it. -/
inductive Stage where
  | idle
  | handling (c : Config) (h : Handled)
  | asked (c : Config) (h : Handled) (winner : Candidate) (found : Option Incident)

/-- The closed statuses of a configuration are these. -/
def Config.Closes (c : Config) (closed : List String) : Prop :=
  ∀ s, s ∈ closedSet c.closedStatuses ↔ s ∈ closed

/-- The states that runs and the closing of complaints lead to. Whatever does not touch faults and
complaints may happen at any time, and a run may stop anywhere. -/
inductive DeskReach (closed : List String) : Desk → Stage → Prop
  | fresh {d : Desk} : d.register.faults = [] → d.register.complaints = [] →
      DeskReach closed d .idle
  | elsewhere {d d' : Desk} {stage : Stage} : DeskReach closed d stage →
      d'.register.faults = d.register.faults → d'.register.complaints = d.register.complaints →
      DeskReach closed d' stage
  | closing {d : Desk} {stage : Stage} {status : String} (number : String) :
      DeskReach closed d stage → Text.upper status ∈ closed →
      DeskReach closed { d with register := d.register.withStatus number status } stage
  | start {d : Desk} {c : Config} : DeskReach closed d .idle → c.Closes closed →
      DeskReach closed d (.handling c .none)
  | ask {d : Desk} {c : Config} {h : Handled} {w : Candidate} {found : Option Incident} :
      DeskReach closed d (.handling c h) →
      (h.keys.contains w.key = false → d.register.find w.unit w.tag = .ok found) →
      DeskReach closed d (.asked c h w found)
  | settle {d : Desk} {c : Config} {h : Handled} {w : Candidate} {found : Option Incident} :
      DeskReach closed d (.asked c h w found) →
      DeskReach closed (d.settle c h w found).2 (.handling c (d.settle c h w found).1)
  | stop {d : Desk} {stage : Stage} : DeskReach closed d stage → DeskReach closed d .idle

/-- A winner that a look-up lets through has no open complaint. -/
def Stage.Sound (closed : List String) (r : Register) : Stage → Prop
  | .idle => True
  | .handling c _ => c.Closes closed
  | .asked c h w found => c.Closes closed ∧ (h.keys.contains w.key = false →
      openIncident? closed (.ok found) = none → r.openFor closed w.unit w.tag = [])

variable {closed : List String} {d d' : Desk} {stage : Stage}

/-- What is true of a register whose open complaints can only have become fewer. -/
theorem Stage.Sound.mono {r r' : Register} (h : stage.Sound closed r)
    (hsub : ∀ unit tag c, c ∈ r'.openFor closed unit tag → c ∈ r.openFor closed unit tag) :
    stage.Sound closed r' := by
  cases stage with
  | idle => trivial
  | handling c h' => exact h
  | asked c h' w found =>
    refine ⟨h.1, fun hkey hnone => List.eq_nil_iff_forall_not_mem.mpr ?_⟩
    intro x hx
    have hmem := hsub w.unit w.tag x hx
    rw [h.2 hkey hnone] at hmem
    simp at hmem

theorem Register.latestIncident?_of_find {r : Register} {unit tag : String}
    {found : Option Incident} (h : r.find unit tag = .ok found) :
    r.latestIncident? unit tag = found := by
  unfold Register.find at h
  cases ha : r.access with
  | error e => simp [ha, bind, Except.bind] at h
  | ok u => simpa [ha, bind, Except.bind, pure, Except.pure] using h

theorem deskReach_orderly (h : DeskReach closed d stage) :
    d.register.Orderly closed ∧ stage.Sound closed d.register := by
  induction h with
  | fresh hf hc => exact ⟨Register.orderly_empty hf hc, trivial⟩
  | elsewhere _ hf hc ih =>
    refine ⟨ih.1.congr hf hc, ih.2.mono ?_⟩
    intro unit tag c hmem
    rwa [Register.openFor_congr hf hc] at hmem
  | closing number _ hs ih =>
    refine ⟨ih.1.withStatus hs, ih.2.mono ?_⟩
    intro unit tag c hmem
    exact Register.mem_openFor_of_withStatus hs hmem
  | start _ hc ih => exact ⟨ih.1, hc⟩
  | ask _ hfind ih =>
    refine ⟨ih.1, ih.2, ?_⟩
    intro hkey hnone
    rw [← Register.latestIncident?_of_find (hfind hkey)] at hnone
    exact ih.1.openFor_eq_nil hnone
  | @settle d c h w found _ ih =>
    obtain ⟨horderly, hcloses, hfree⟩ := ih
    refine ⟨?_, hcloses⟩
    rcases d.settle_register c h w found with hsame | ⟨hkey, hnone, hentry⟩
    · exact horderly.congr (by rw [hsame]) (by rw [hsame])
    · rw [openIncident?_congr hcloses] at hnone
      rw [hentry]
      exact horderly.enter _ _ (hfree hkey hnone)
  | stop _ ih => exact ⟨ih.1, trivial⟩

/-! ## A whole run is a history -/

theorem Register.enter_down (r : Register) (k : Clerk) (now : Instant) (w : Candidate) :
    (r.enter k now w).2.down = r.down := by
  rcases r.enter_cases k now w with ⟨f, h⟩ | ⟨d, e, -, h⟩
  · rw [h]
  · rw [h]
    rfl

theorem Desk.settle_down (c : Config) (h : Handled) (w : Candidate) (found : Option Incident)
    (d : Desk) : (settle c h w found d).2.register.down = d.register.down := by
  rcases settle_register c h w found d with hsame | ⟨-, -, hentry⟩
  · rw [hsame]
  · rw [hentry, Register.enter_down]

theorem deskReach_winner {c : Config} {r : Run} (h : DeskReach closed d (.handling c r.handled))
    (hdown : d.register.down = none) (w : Candidate) :
    DeskReach closed (Desk.takeWinner c (r, d) w).2
        (.handling c (Desk.takeWinner c (r, d) w).1.handled) ∧
      (Desk.takeWinner c (r, d) w).2.register.down = none := by
  have hfind : d.register.find w.unit w.tag = .ok (d.register.latestIncident? w.unit w.tag) := by
    simp [Register.find, Register.access, hdown, bind, Except.bind, pure, Except.pure]
  rw [Desk.takeWinner_eq hfind]
  exact ⟨(h.ask fun _ => hfind).settle, (Desk.settle_down ..).trans hdown⟩

theorem deskReach_winners {c : Config} (state : Run × Desk) (ws : List Candidate)
    (h : DeskReach closed state.2 (.handling c state.1.handled))
    (hdown : state.2.register.down = none) :
    DeskReach closed (ws.foldl (Desk.takeWinner c) state).2
        (.handling c (ws.foldl (Desk.takeWinner c) state).1.handled) ∧
      (ws.foldl (Desk.takeWinner c) state).2.register.down = none := by
  induction ws generalizing state with
  | nil => exact ⟨h, hdown⟩
  | cons w rest ih =>
    obtain ⟨hnext, hdown'⟩ := deskReach_winner h hdown w
    exact ih _ hnext hdown'

theorem deskReach_block {c : Config} {sel : Selector} {b : Block} {next : Option Block} {r : Run}
    (h : DeskReach closed d (.handling c r.handled)) (hdown : d.register.down = none) :
    DeskReach closed (Desk.takeBlock c sel b next r d).2.2
        (.handling c (Desk.takeBlock c sel b next r d).2.1.handled) ∧
      (Desk.takeBlock c sel b next r d).2.2.register.down = none := by
  unfold Desk.takeBlock
  dsimp only
  split
  next => exact ⟨h.elsewhere rfl rfl, hdown⟩
  next =>
    split
    next => exact ⟨h.elsewhere rfl rfl, hdown⟩
    next => exact deskReach_winners _ _ (h.elsewhere rfl rfl) hdown

theorem deskReach_blocks {c : Config} {sel : Selector} (bs : List (Block × Option Block)) {r : Run}
    (h : DeskReach closed d (.handling c r.handled)) (hdown : d.register.down = none) :
    DeskReach closed (Desk.takeBlocks c sel bs r d).2.2
      (.handling c (Desk.takeBlocks c sel bs r d).2.1.handled) := by
  induction bs generalizing r d with
  | nil => exact h
  | cons b rest ih =>
    obtain ⟨b, next⟩ := b
    obtain ⟨hnext, hdown'⟩ := @deskReach_block closed d c sel b next r h hdown
    unfold Desk.takeBlocks
    split
    next he => rw [he] at hnext; exact hnext
    next he => rw [he] at hnext hdown'; exact ih hnext hdown'

theorem Checkpoint.set_tables (r : Register) (key : String) (at_ : Stamp) (now : Instant) :
    (set r key at_ now).2.faults = r.faults ∧
      (set r key at_ now).2.complaints = r.complaints := by
  unfold set
  split
  next => exact ⟨rfl, rfl⟩
  next => split <;> exact ⟨rfl, rfl⟩

theorem deskReach_conclude {r : Run} {failure : Option Failure} {report : RunReport}
    (h : DeskReach closed d .idle) : DeskReach closed (d.conclude r failure report).2 .idle := by
  unfold Desk.conclude
  dsimp only
  split
  next => exact h
  next => exact h
  next latest _ =>
    have htables := Checkpoint.set_tables d.register d.runKey (.utc latest) d.now
    split
    next hset => rw [hset] at htables; exact h.elsewhere htables.1 htables.2
    next hset => rw [hset] at htables; exact h.elsewhere htables.1 htables.2

theorem deskReach_work {c : Config} (report : RunReport) (h : DeskReach closed d .idle)
    (hdown : d.register.down = none) (hc : c.Closes closed) :
    DeskReach closed (d.work c report).2 .idle := by
  unfold Desk.work
  dsimp only
  split
  next => exact h
  next =>
    split
    next => exact h
    next =>
      have hstart : DeskReach closed d (.handling c Run.start.handled) := .start h hc
      exact deskReach_conclude ((deskReach_blocks _ hstart hdown).stop.elsewhere rfl rfl)

/-- A run that nothing disturbs leads on from state to state, whether it does its work or fails. -/
theorem deskReach_run (h : DeskReach closed d .idle) (hdown : d.register.down = none)
    (hrules : ∀ c, d.rules = .ok c → c.Closes closed) : DeskReach closed d.run.2 .idle := by
  unfold Desk.run
  dsimp only
  split
  next => exact h.elsewhere rfl rfl
  next => exact h.elsewhere rfl rfl
  next lease leases _ =>
    cases hd : d.rules with
    | error f =>
      simp only
      split
      next => exact h.elsewhere rfl rfl
      next => exact h.elsewhere rfl rfl
    | ok c =>
      have hheld : DeskReach closed { d with rules := .ok c, lease, leases } .idle :=
        h.elsewhere rfl rfl
      have hworked := deskReach_work (.start d.now) hheld hdown (hrules c hd)
      simp only
      split
      next => exact hworked.elsewhere rfl rfl
      next => exact hworked.elsewhere rfl rfl

/-- In every state of a history at most one complaint of a unit and tag is open, and it is about
their latest fault. -/
theorem one_open_complaint (h : DeskReach closed d stage) (unit tag : String) :
    (d.register.openFor closed unit tag).length ≤ 1 ∧
      ∀ c ∈ d.register.openFor closed unit tag, ∃ f ∈ d.register.faults,
        c.faultId = some (f.id : Int) ∧ f.unit = unit ∧ f.tag = tag ∧
          ∀ g ∈ d.register.faults, g.unit = unit → g.tag = tag → g.id ≤ f.id :=
  (deskReach_orderly h).1.openFor_unique unit tag

/-- A desk of the standard configuration with an empty register. -/
def quietDesk : Desk where
  now := 0
  rules := .ok .standard
  rulesPath := ""
  readings := .empty "north"
  downParts := []
  register := .empty
  refusals := 0
  submittedBy := none
  lookback := Double.ofNat 24
  timers := .empty true
  leases := .empty
  lease := ⟨"run", 600000000, false, none, none⟩
  dryRun := false
  development := false
  audit := []
  last := none

def firstFault : Candidate := ⟨"101", "Tag8", .int 0, 0, .simple default, none, .digital⟩

/-- What a run has handled when it has entered its first fault, and the desk then. -/
def firstEntered : Handled × Desk := quietDesk.settle .standard .none firstFault none

theorem one_open_complaint_firstEntered :
    (firstEntered.2.register.openFor Config.closedByDefault "101" "Tag8").length = 1 := by
  have hset : closedSet Config.standard.closedStatuses = Config.closedByDefault := by
    decide +kernel
  have hcloses : Config.standard.Closes Config.closedByDefault := by
    intro s
    rw [hset]
  have hstart : DeskReach Config.closedByDefault quietDesk (.handling .standard .none) :=
    .start (.fresh rfl rfl) hcloses
  have hasked : DeskReach Config.closedByDefault quietDesk
      (.asked .standard .none firstFault none) :=
    .ask hstart fun _ => rfl
  have hle := (one_open_complaint hasked.settle "101" "Tag8").1
  have hge : 1 ≤ (firstEntered.2.register.openFor Config.closedByDefault "101" "Tag8").length := by
    decide +kernel
  exact Nat.le_antisymm hle hge

end FaultDesk
