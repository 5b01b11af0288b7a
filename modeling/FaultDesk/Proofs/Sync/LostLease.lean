import FaultDesk.Proofs.Sync.Passage

/-!
Leases that are lost on the way. A run renews its lease at every block and drops the answer: whatever
others do with the records meanwhile, it makes of its blocks what a run makes that never held the
lease. So a run that outlives its lease goes on beside the one that has taken it over.
-/

namespace FaultDesk

/-- A block and the one that follows, with the clock and the records of leases when it is complete. -/
structure Turn where
  now : Instant
  leases : LeaseTable
  block : Block
  next : Option Block

namespace Lease

variable {l : Lease} {now : Instant} {t : LeaseTable}

/-- A renewal gives an answer where the records can be looked at and the lease would end within the
calendar. -/
theorem renew_answers (l : Lease) (haccess : t.access = .ok ())
    (hends : (Instant.shift? now l.ttl).isSome) :
    ∃ held l' t', l.renew now t = (.ok held, l', t') ∧ l'.ttl = l.ttl := by
  obtain ⟨e, he⟩ := Option.isSome_iff_exists.mp hends
  simp only [renew, haccess, he]
  split
  next => exact ⟨_, _, _, rfl, rfl⟩
  next =>
    split
    next => exact ⟨_, _, _, rfl, rfl⟩
    next => split <;> exact ⟨_, _, _, rfl, rfl⟩

end Lease

namespace Handled

variable {σ : Type}

/-- Faults are handled alike in books that find and enter alike. -/
theorem take_map (book : IncidentBook σ) (closed : List String) (f : σ → σ)
    (hfind : ∀ s unit tag, book.find (f s) unit tag = book.find s unit tag)
    (henter : ∀ s w, book.enter (f s) w = ((book.enter s w).1, f (book.enter s w).2))
    (simulate : Bool) (w : Candidate) (h : Handled) (s : σ) :
    h.take book closed simulate w (f s) =
      ((h.take book closed simulate w s).1, f (h.take book closed simulate w s).2) := by
  obtain ⟨hhandled, hafter⟩ := @take_alike σ σ book book closed simulate w h s (f s)
    (fun s t => t = f s) rfl (fun _ => hfind ..) ⟨by rw [henter], by rw [henter]⟩
  exact Prod.ext hhandled hafter

end Handled

namespace Desk

variable {c : Config} {sel : Selector} {d d' : Desk} {r : Run}

/-- The desk without its lease and the records. -/
def leaseless (d : Desk) : Desk := { d with lease := .fresh "" 0, leases := .empty }

/-- What comes of blocks, but for the lease. -/
def leaselessly (outcome : Option Failure × Run × Desk) : Option Failure × Run × Desk :=
  (outcome.1, outcome.2.1, outcome.2.2.leaseless)

/-- Takes block after block until one fails, while the clock goes on and others take and give back
leases. -/
def takeTurns (c : Config) (sel : Selector) : List Turn → Run → Desk → Option Failure × Run × Desk
  | [], r, d => (none, { r with ended := true }, d)
  | turn :: rest, r, d =>
    match takeBlock c sel turn.block turn.next r { d with now := turn.now, leases := turn.leases } with
    | (some e, r, d) => (some e, r, d)
    | (none, r, d) => takeTurns c sel rest r d

/-- Blocks that are taken while nothing else happens are taken in turns. -/
theorem exists_takeTurns_eq (bs : List (Block × Option Block)) (r : Run) (d : Desk) :
    ∃ turns : List Turn, turns.map (fun turn => (turn.block, turn.next)) = bs ∧
      takeTurns c sel turns r d = takeBlocks c sel bs r d := by
  induction bs generalizing r d with
  | nil => exact ⟨[], rfl, rfl⟩
  | cons b rest ih =>
    obtain ⟨b, next⟩ := b
    cases htaken : takeBlock c sel b next r d with
    | mk failure out =>
      obtain ⟨r', d'⟩ := out
      obtain ⟨turns, hturns, hrest⟩ := ih r' d'
      refine ⟨⟨d.now, d.leases, b, next⟩ :: turns, by rw [List.map_cons, hturns], ?_⟩
      unfold takeTurns takeBlocks
      dsimp only
      rw [htaken]
      cases failure with
      | none => exact hrest
      | some f => rfl

/-! ## What does not depend on the lease -/

theorem enter_leaseless (mapping : ComplaintMapping) (d : Desk) (w : Candidate) :
    (book mapping).enter d.leaseless w =
      (((book mapping).enter d w).1, ((book mapping).enter d w).2.leaseless) := by
  unfold book
  dsimp only
  have hrefusals : d.leaseless.refusals = d.refusals := rfl
  rw [hrefusals]
  split
  next =>
    have hentered : d.leaseless.register.enter ⟨mapping, d.leaseless.clientId, d.leaseless.submittedBy⟩
        d.leaseless.now w = d.register.enter ⟨mapping, d.clientId, d.submittedBy⟩ d.now w := rfl
    rw [hentered]
    split <;> rfl
  next => rfl

theorem takeWinner_leaseless (r : Run) (d : Desk) (w : Candidate) :
    takeWinner c (r, d.leaseless) w =
      ((takeWinner c (r, d) w).1, (takeWinner c (r, d) w).2.leaseless) := by
  have htaken := Handled.take_map (book c.complaints) (closedSet c.closedStatuses) leaseless
    (fun _ _ _ => rfl) (enter_leaseless c.complaints) d.simulates w
    { r.handled with counts.candidates := r.handled.counts.candidates + 1 } d
  have hsimulates : d.leaseless.simulates = d.simulates := rfl
  unfold takeWinner
  dsimp only
  rw [hsimulates, htaken]

theorem winners_leaseless (ws : List Candidate) (r : Run) (d : Desk) :
    ws.foldl (takeWinner c) (r, d.leaseless) =
      ((ws.foldl (takeWinner c) (r, d)).1, (ws.foldl (takeWinner c) (r, d)).2.leaseless) := by
  induction ws generalizing r d with
  | nil => rfl
  | cons w rest ih =>
    rw [List.foldl_cons, List.foldl_cons, takeWinner_leaseless]
    exact ih _ _

theorem takeWinner_lease (state : Run × Desk) (w : Candidate) :
    (takeWinner c state w).2.lease = state.2.lease := by
  obtain ⟨r, d⟩ := state
  unfold takeWinner
  dsimp only
  rcases Handled.take_cases (book c.complaints) (closedSet c.closedStatuses) d.simulates w
      { r.handled with counts.candidates := r.handled.counts.candidates + 1 } d with
    hsame | ⟨-, -, hentered⟩
  · rw [hsame]
  · rw [hentered]
    unfold book
    dsimp only
    split
    next => split <;> rfl
    next => rfl

theorem winners_lease (ws : List Candidate) (state : Run × Desk) :
    (ws.foldl (takeWinner c) state).2.lease = state.2.lease := by
  induction ws generalizing state with
  | nil => rfl
  | cons w rest ih => exact (ih _).trans (takeWinner_lease state w)

/-- What a block comes to does not depend on the lease, whatever its renewal answers. -/
theorem takeBlock_leaseless {b : Block} {next : Option Block}
    (haccess : d.leases.access = .ok ()) (hends : (Instant.shift? d.now d.lease.ttl).isSome) :
    leaselessly (takeBlock c sel b next r d) = takeBlock c sel b next r d.leaseless ∧
      (takeBlock c sel b next r d).2.2.lease.ttl = d.lease.ttl := by
  obtain ⟨held, lease, leases, hrenew, httl⟩ := d.lease.renew_answers haccess hends
  have hlost : d.leaseless.lease.renew d.leaseless.now d.leaseless.leases =
      (.ok false, d.leaseless.lease, d.leaseless.leases) := rfl
  have htimers : d.leaseless.timers = d.timers := rfl
  unfold takeBlock leaselessly
  dsimp only
  rw [hrenew, hlost, htimers]
  dsimp only
  split
  next => exact ⟨rfl, httl⟩
  next cs _ =>
    generalize Selector.giveOut _ none cs = out
    obtain ⟨ws, given, wanted⟩ := out
    have hwinners := @winners_leaseless c ws { r.reading b next with given }
      { d with lease, leases, timers := (sel.flush b.unit b.samples d.timers).timers }
    refine ⟨?_, ?_⟩
    · exact congrArg (Prod.mk none) hwinners.symm
    · exact (congrArg Lease.ttl (winners_lease ws _)).trans httl

/-- Turns come to what they come to for a desk that never held the lease. -/
theorem takeTurns_leaseless {turns : List Turn}
    (hturns : ∀ turn ∈ turns, turn.leases.access = .ok () ∧
      (Instant.shift? turn.now d.lease.ttl).isSome) :
    leaselessly (takeTurns c sel turns r d) =
      takeTurns c sel (turns.map fun turn => { turn with leases := .empty }) r d.leaseless := by
  induction turns generalizing r d with
  | nil => rfl
  | cons turn rest ih =>
    obtain ⟨haccess, hends⟩ := hturns turn List.mem_cons_self
    obtain ⟨hblock, httl⟩ := @takeBlock_leaseless c sel
      { d with now := turn.now, leases := turn.leases } r turn.block turn.next haccess hends
    rw [List.map_cons]
    unfold takeTurns
    have hleaseless : ({ d with now := turn.now, leases := turn.leases } : Desk).leaseless =
        { d.leaseless with now := turn.now, leases := .empty } := rfl
    rw [hleaseless] at hblock
    dsimp only
    rw [← hblock]
    generalize takeBlock c sel turn.block _ r _ = taken at httl ⊢
    obtain ⟨failure, r', d'⟩ := taken
    cases failure with
    | some f => rfl
    | none =>
      refine ih fun later hlater => ?_
      have hlater' := hturns later (List.mem_cons_of_mem turn hlater)
      rwa [show d'.lease.ttl = d.lease.ttl from httl]

/-- Whatever others do with the records of leases while blocks are taken, and whether or not the lease
is still held, the same comes of the blocks. -/
theorem takeTurns_same {turns turns' : List Turn} (hd : d.leaseless = d'.leaseless)
    (hsame : turns.map (fun turn => (turn.now, turn.block, turn.next)) =
      turns'.map fun turn => (turn.now, turn.block, turn.next))
    (hturns : ∀ turn ∈ turns, turn.leases.access = .ok () ∧
      (Instant.shift? turn.now d.lease.ttl).isSome)
    (hturns' : ∀ turn ∈ turns', turn.leases.access = .ok () ∧
      (Instant.shift? turn.now d'.lease.ttl).isSome) :
    leaselessly (takeTurns c sel turns r d) = leaselessly (takeTurns c sel turns' r d') := by
  have hcleared : (turns.map fun turn => { turn with leases := LeaseTable.empty }) =
      turns'.map fun turn => { turn with leases := LeaseTable.empty } := by
    have hmap := congrArg (List.map fun p : Instant × Block × Option Block =>
      Turn.mk p.1 .empty p.2.1 p.2.2) hsame
    simpa [List.map_map, Function.comp_def] using hmap
  rw [takeTurns_leaseless hturns, takeTurns_leaseless hturns', hd, hcleared]

/-- Twenty minutes later another holds the record, the renewal says so, and the fault is entered. -/
example :
    let rules : Config := { Config.standard with
      ruleSets := ⟨⟨true, none, [.simple { (default : Rule) with
        tag := "Tag1", condition := .equals, threshold := .whole 1, enabled := true }]⟩, .empty⟩ }
    let held : Desk := { quietDesk with
      lease := ⟨"run", 10 * Span.minute, true, some "first", some (10 * Span.minute)⟩ }
    let others : LeaseTable := ⟨[("run", ⟨"second", 30 * Span.minute⟩)], true, none⟩
    let turn : Turn := ⟨20 * Span.minute, others,
      ⟨"101", [⟨"101", "Tag1", .int 1, 0, .unified, some []⟩], []⟩, none⟩
    (held.lease.renew turn.now others).1.toOption = some false ∧
      (takeTurns rules (held.selector rules) [turn] .start held).2.2.register.faults.map (·.unit) =
        ["101"] := by
  decide +kernel

end Desk

end FaultDesk
