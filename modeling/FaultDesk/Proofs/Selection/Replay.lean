import FaultDesk.Proofs.Arbitration.Standing
import FaultDesk.Proofs.Selection.Winners
import FaultDesk.Proofs.Timer.Dialogue
import FaultDesk.Selection

/-!
A block judged a second time, with the timers that judging it has left. Each part of the judgement is
a dialogue with the timers, and so is the whole of it.
-/

namespace FaultDesk

open Dialogue

variable {s : Sample} {related : List Sample} {t : Timers} {unit : String} {samples : List Sample}

/-! ## The rules as dialogues -/

/-- The verdict of a rule as a dialogue with the timers. -/
def Rule.dialogue (r : Rule) (s : Sample) (related : List Sample) :
    Dialogue (Except Failure Bool) :=
  match r.prerequisiteHolds s related with
  | .error e => .ended (.error e)
  | .ok false => .ended (.ok false)
  | .ok true =>
    match r.holdsFor s.value with
    | .error e => .ended (.error e)
    | .ok holds =>
      if r.gated then
        match r.timerKey s.unit with
        | .error e => .ended (.error e)
        | .ok key =>
          if holds then .ask key r.duration s.time s.time .ended
          else .drop key (.ended (.ok false))
      else .ended (.ok holds)

theorem Rule.hold_dialogue (r : Rule) (s : Sample) (related : List Sample) (t : Timers) :
    (r.dialogue s related).hold t = r.verdict s related t := by
  unfold Rule.dialogue Rule.verdict Rule.clearTimer Rule.askTimer
  cases r.prerequisiteHolds s related with
  | error e => rfl
  | ok b =>
    cases b with
    | false => rfl
    | true =>
      cases r.holdsFor s.value with
      | error e => rfl
      | ok holds =>
        cases hg : r.gated with
        | false => cases holds <;> rfl
        | true => cases hk : r.timerKey s.unit <;> cases holds <;> rfl

theorem Rule.dialogue_dated (r : Rule) (hs : s.Dated) : (r.dialogue s related).Dated := by
  unfold Rule.dialogue
  cases r.prerequisiteHolds s related with
  | error e => trivial
  | ok b =>
    cases b with
    | false => trivial
    | true =>
      cases r.holdsFor s.value with
      | error e => trivial
      | ok holds =>
        dsimp only
        split
        next =>
          split
          next => trivial
          next =>
            split
            next => exact ⟨hs, fun _ => trivial⟩
            next => trivial
        next => trivial

def matchDialogue (s : Sample) (related : List Sample) :
    Nat → List Rule → Dialogue (Option (Nat × Rule))
  | _, [] => .ended none
  | n, r :: rest =>
    if r.watches s then
      (r.dialogue s related).bind fun
        | .ok true => .ended (some (n, r))
        | _ => matchDialogue s related (n + 1) rest
    else matchDialogue s related (n + 1) rest

theorem hold_matchDialogue (s : Sample) (related : List Sample) (n : Nat) (rules : List Rule)
    (t : Timers) :
    (matchDialogue s related n rules).hold t = matchFrom s related n rules t := by
  induction rules generalizing n t with
  | nil => rfl
  | cons r rest ih =>
    unfold matchDialogue matchFrom
    split
    next =>
      rw [hold_bind, r.hold_dialogue]
      obtain ⟨e | _ | _, t'⟩ := r.verdict s related t
      next => exact ih (n + 1) t'
      next => exact ih (n + 1) t'
      next => rfl
    next => exact ih (n + 1) t

theorem matchDialogue_dated (hs : s.Dated) (n : Nat) (rules : List Rule) :
    (matchDialogue s related n rules).Dated := by
  induction rules generalizing n with
  | nil => trivial
  | cons r rest ih =>
    unfold matchDialogue
    split
    next =>
      apply (r.dialogue_dated hs).bind
      intro b
      split
      next => trivial
      next => exact ih (n + 1)
    next => exact ih (n + 1)

/-- The timer part of a rate rule's verdict. -/
def RateRule.gateDialogue (r : RateRule) (s : Sample) : Dialogue (Except Failure (Option Bool)) :=
  if r.gated then
    match r.timerKey s.unit with
    | .error e => .ended (.error e)
    | .ok key =>
      match r.holdsFor s.value with
      | .error e => .ended (.error e)
      | .ok false => .drop key (.ended (.ok none))
      | .ok true => .ask key r.duration s.time s.time fun answer => .ended (answer.map some)
  else .ended (.ok (some true))

theorem RateRule.hold_gateDialogue (r : RateRule) (s : Sample) (t : Timers) :
    (r.gateDialogue s).hold t = r.gate s t := by
  unfold RateRule.gateDialogue RateRule.gate
  cases r.gated with
  | false => rfl
  | true =>
    cases r.timerKey s.unit with
    | error e => rfl
    | ok key =>
      cases r.holdsFor s.value with
      | error e => rfl
      | ok holds =>
        cases holds with
        | false => rfl
        | true =>
          simp only [↓reduceIte, hold_ask, hold_ended]
          change (Except.map some (t.sustained key r.duration (.utc s.time) none).1,
            (t.sustained key r.duration (.utc s.time) none).2) = _
          obtain ⟨answer, t'⟩ := t.sustained key r.duration (.utc s.time) none
          cases answer <;> rfl

theorem RateRule.gateDialogue_dated (r : RateRule) (hs : s.Dated) : (r.gateDialogue s).Dated := by
  unfold RateRule.gateDialogue
  split
  next =>
    split
    next => trivial
    next =>
      split
      next => trivial
      next => trivial
      next => exact ⟨hs, fun _ => trivial⟩
  next => trivial

/-- The verdict of a rate rule. -/
def RateRule.rateDialogue (r : RateRule) (s : Sample) (related : List Sample) (h : History)
    (now : Instant) : Dialogue (Except Failure (Option RateStats)) :=
  match r.prerequisiteHolds s related with
  | .error e => .ended (.error e)
  | .ok false => .ended (.ok none)
  | .ok true =>
    (r.gateDialogue s).bind fun
      | .error e => .ended (.error e)
      | .ok none => .ended (.ok none)
      | .ok (some sustained) => .ended do
        match ← r.share h now with
        | none => return none
        | some st => return if sustained then some st else none

theorem RateRule.hold_rateDialogue (r : RateRule) (s : Sample) (related : List Sample)
    (h : History) (now : Instant) (t : Timers) :
    (r.rateDialogue s related h now).hold t = r.verdict s related h now t := by
  unfold RateRule.rateDialogue RateRule.verdict
  cases r.prerequisiteHolds s related with
  | error e => rfl
  | ok b =>
    cases b with
    | false => rfl
    | true =>
      dsimp only
      rw [hold_bind, r.hold_gateDialogue]
      obtain ⟨gate, t'⟩ := r.gate s t
      match gate with
      | .error e => rfl
      | .ok none => rfl
      | .ok (some sustained) => rfl

theorem RateRule.rateDialogue_dated (r : RateRule) (hs : s.Dated) (h : History) (now : Instant) :
    (r.rateDialogue s related h now).Dated := by
  unfold RateRule.rateDialogue
  split
  next => trivial
  next => trivial
  next =>
    apply (r.gateDialogue_dated hs).bind
    intro gate
    split <;> trivial

def firstRateDialogue (s : Sample) (related : List Sample) (h : History) (now : Instant) :
    List RateRule → Dialogue (Option Candidate)
  | [] => .ended none
  | r :: rest =>
    (r.rateDialogue s related h now).bind fun
      | .ok (some st) => .ended (some (.ofSample s (.rate r) (some st)))
      | _ => firstRateDialogue s related h now rest

theorem hold_firstRateDialogue (s : Sample) (related : List Sample) (h : History) (now : Instant)
    (rules : List RateRule) (t : Timers) :
    (firstRateDialogue s related h now rules).hold t = rateFrom s related h now rules t := by
  induction rules generalizing t with
  | nil => rfl
  | cons r rest ih =>
    unfold firstRateDialogue rateFrom
    rw [hold_bind, r.hold_rateDialogue]
    obtain ⟨e | _ | st, t'⟩ := r.verdict s related h now t
    next => exact ih t'
    next => exact ih t'
    next => rfl

theorem firstRateDialogue_dated (hs : s.Dated) (h : History) (now : Instant)
    (rules : List RateRule) : (firstRateDialogue s related h now rules).Dated := by
  induction rules with
  | nil => trivial
  | cons r rest ih =>
    apply (r.rateDialogue_dated hs h now).bind
    intro found
    split
    next => trivial
    next => exact ih

/-! ## The master rules -/

/-- Whether a run has lasted long enough. -/
def MasterRule.ripeDialogue (r : MasterRule) (key : TimerKey) (run : ActiveRun) :
    Dialogue (Except Failure Bool) :=
  let question : Dialogue (Except Failure Bool) :=
    .ask key r.duration run.first.time run.latest.time .ended
  if run.latest.kind = .computed ∨ !r.gated then .ended (.ok true)
  else if run.interrupted then .drop key question else question

theorem MasterRule.hold_ripeDialogue (r : MasterRule) (key : TimerKey) (run : ActiveRun)
    (t : Timers) : (r.ripeDialogue key run).hold t = r.ripe key run t := by
  unfold MasterRule.ripeDialogue MasterRule.ripe
  dsimp only
  split
  next => rfl
  next => split <;> rfl

theorem MasterRule.ripeDialogue_dated (r : MasterRule) (key : TimerKey) {run : ActiveRun}
    (hrun : run.first.Dated) : (r.ripeDialogue key run).Dated := by
  unfold MasterRule.ripeDialogue
  dsimp only
  split
  next => trivial
  next => split <;> exact ⟨hrun, fun _ => trivial⟩

/-- The verdict of a master rule. -/
def MasterRule.masterDialogue (r : MasterRule) (unit : String) (samples : List Sample) :
    Dialogue (Except Failure (Option MasterMatch)) :=
  match r.timerKey unit with
  | .error e => .ended (.error e)
  | .ok key =>
    match ActiveRun.find r samples with
    | .error e => .ended (.error e)
    | .ok none => if r.gated then .drop key (.ended (.ok none)) else .ended (.ok none)
    | .ok (some run) =>
      (r.ripeDialogue key run).bind fun answer =>
        .ended (answer.map fun ripe => if ripe then some ⟨r, run.latest⟩ else none)

theorem MasterRule.hold_masterDialogue (r : MasterRule) (unit : String) (samples : List Sample)
    (t : Timers) : (r.masterDialogue unit samples).hold t = r.verdict unit samples t := by
  unfold MasterRule.masterDialogue MasterRule.verdict
  cases r.timerKey unit with
  | error e => rfl
  | ok key =>
    cases ActiveRun.find r samples with
    | error e => rfl
    | ok found =>
      cases found with
      | none =>
        dsimp only
        split <;> rfl
      | some run =>
        dsimp only
        rw [hold_bind, r.hold_ripeDialogue]
        obtain ⟨answer, t'⟩ := r.ripe key run t
        match answer with
        | .error e => rfl
        | .ok false => rfl
        | .ok true => rfl

theorem MasterRule.first_dated {r : MasterRule} {run : ActiveRun}
    (hs : ∀ s ∈ samples, s.Dated) (hrun : ActiveRun.find r samples = .ok (some run)) :
    run.first.Dated := by
  obtain ⟨hfirst, -, -⟩ := ActiveRun.find_some hrun
  have hmem := MasterRule.mem_trailing (List.mem_of_head? hfirst)
  exact hs _ hmem.1

theorem MasterRule.masterDialogue_dated (r : MasterRule) (unit : String)
    (hs : ∀ s ∈ samples, s.Dated) : (r.masterDialogue unit samples).Dated := by
  unfold MasterRule.masterDialogue
  split
  next => trivial
  next key _ =>
    split
    next => trivial
    next => split <;> trivial
    next run hrun =>
      apply (r.ripeDialogue_dated key (MasterRule.first_dated hs hrun)).bind
      exact fun _ => trivial

def arbitrationDialogue (unit : String) (samples : List Sample) (collected : List MasterMatch) :
    List MasterRule → Dialogue (Except Failure Arbitration)
  | [] => .ended (.ok ⟨none, collected⟩)
  | r :: rest =>
    if r.enabled then
      (r.masterDialogue unit samples).bind fun
        | .error e => .ended (.error e)
        | .ok none => arbitrationDialogue unit samples collected rest
        | .ok (some m) =>
          if r.isBlocking then .ended (.ok ⟨some m, []⟩)
          else arbitrationDialogue unit samples (collected ++ [m]) rest
    else arbitrationDialogue unit samples collected rest

theorem hold_arbitrationDialogue (unit : String) (samples : List Sample)
    (collected : List MasterMatch) (rules : List MasterRule) (t : Timers) :
    (arbitrationDialogue unit samples collected rules).hold t =
      arbitrateFrom unit samples collected rules t := by
  induction rules generalizing collected t with
  | nil => rfl
  | cons r rest ih =>
    unfold arbitrationDialogue arbitrateFrom
    split
    next =>
      rw [hold_bind, r.hold_masterDialogue]
      obtain ⟨e | _ | m, t'⟩ := r.verdict unit samples t
      next => rfl
      next => exact ih collected t'
      next =>
        dsimp only
        split
        next => rfl
        next => exact ih (collected ++ [m]) t'
    next => exact ih collected t

theorem arbitrationDialogue_dated (unit : String) (hs : ∀ s ∈ samples, s.Dated)
    (collected : List MasterMatch) (rules : List MasterRule) :
    (arbitrationDialogue unit samples collected rules).Dated := by
  induction rules generalizing collected with
  | nil => trivial
  | cons r rest ih =>
    unfold arbitrationDialogue
    split
    next =>
      apply (r.masterDialogue_dated unit hs).bind
      intro found
      split
      next => trivial
      next => exact ih collected
      next m =>
        split
        next => trivial
        next => exact ih (collected ++ [m])
    next => exact ih collected

/-! ## A block -/

/-- What has been found on the way through the ordinary rules. -/
structure Findings where
  history : Option History
  hits : List Candidate

namespace Selector

variable {sel : Selector}

/-- One sample before the simple rules. -/
def simpleDialogue (sel : Selector) (s : Sample) (related : List Sample) (st : Findings) :
    Dialogue Findings :=
  (matchDialogue s related 0 sel.simple).bind fun
    | none => .ended st
    | some (_, r) => .ended { st with hits := st.hits ++ [.ofSample s (.simple r) none] }

/-- One sample before the rate rules. -/
def rateDialogue (sel : Selector) (s : Sample) (related : List Sample) (h : History)
    (st : Findings) : Dialogue Findings :=
  (firstRateDialogue s related h sel.now (sel.rate.filter fun r => r.watches s)).bind fun
    | none => .ended { st with history := some h }
    | some c => .ended { st with history := some h, hits := st.hits ++ [c] }

def searchDialogue (sel : Selector) (unit : String) :
    List (Sample × List Sample) → Findings → Dialogue (Option Failure × Findings)
  | [], st => .ended (none, st)
  | (s, related) :: rest, st =>
    (sel.simpleDialogue s related st).bind fun st =>
      if sel.asksHistory s then
        match st.history with
        | some h => (sel.rateDialogue s related h st).bind (searchDialogue sel unit rest)
        | none =>
          match sel.historyOf unit with
          | .error e => .ended (some e, st)
          | .ok h => (sel.rateDialogue s related h st).bind (searchDialogue sel unit rest)
      else searchDialogue sel unit rest st

end Selector

/-- A search in which there is nothing but some findings and timers. -/
def Search.of (st : Findings) (t : Timers) : Search := ⟨t, st.history, st.hits⟩

namespace Selector

variable {sel : Selector}

theorem trySimple_eq (sel : Selector) (s : Sample) (related : List Sample) (st : Findings)
    (t : Timers) :
    sel.trySimple s related (.of st t) =
      .of ((sel.simpleDialogue s related st).hold t).1
        ((sel.simpleDialogue s related st).hold t).2 := by
  unfold simpleDialogue trySimple firstMatch
  rw [hold_bind, hold_matchDialogue]
  dsimp only [Search.of]
  obtain ⟨_ | ⟨_, r⟩, t'⟩ := matchFrom s related 0 sel.simple t
  next => rfl
  next => rfl

theorem tryRate_eq (sel : Selector) (s : Sample) (related : List Sample) (h : History)
    (st : Findings) (t : Timers) :
    sel.tryRate s related h (.of st t) =
      .of ((sel.rateDialogue s related h st).hold t).1
        ((sel.rateDialogue s related h st).hold t).2 := by
  unfold rateDialogue tryRate firstRateIn
  rw [hold_bind, hold_firstRateDialogue]
  dsimp only [Search.of]
  obtain ⟨_ | c, t'⟩ := rateFrom s related h sel.now (sel.rate.filter fun r => r.watches s) t
  next => rfl
  next => rfl

theorem search_eq (sel : Selector) (unit : String) (samples : List (Sample × List Sample))
    (st : Findings) (t : Timers) :
    sel.search unit samples (.of st t) =
      (((sel.searchDialogue unit samples st).hold t).1.1,
        .of ((sel.searchDialogue unit samples st).hold t).1.2
          ((sel.searchDialogue unit samples st).hold t).2) := by
  induction samples generalizing st t with
  | nil => rfl
  | cons sample rest ih =>
    obtain ⟨s, related⟩ := sample
    unfold searchDialogue search
    rw [hold_bind, sel.trySimple_eq]
    obtain ⟨st', t'⟩ := (sel.simpleDialogue s related st).hold t
    dsimp only
    split
    next =>
      change (match st'.history with
        | some h => _
        | none => _) = _
      cases st'.history with
      | some h =>
        dsimp only
        rw [hold_bind, sel.tryRate_eq]
        exact ih ..
      | none =>
        dsimp only
        cases sel.historyOf unit with
        | error e => rfl
        | ok h =>
          dsimp only
          rw [hold_bind, sel.tryRate_eq]
          exact ih ..
    next => exact ih ..

theorem searchDialogue_dated (sel : Selector) (unit : String)
    {samples : List (Sample × List Sample)} (hs : ∀ s ∈ samples, s.1.Dated) (st : Findings) :
    (sel.searchDialogue unit samples st).Dated := by
  induction samples generalizing st with
  | nil => trivial
  | cons sample rest ih =>
    obtain ⟨s, related⟩ := sample
    have hsample : s.Dated := hs _ List.mem_cons_self
    have hrest := ih fun r hr => hs r (List.mem_cons_of_mem _ hr)
    have hrate (h : History) (st : Findings) :
        ((sel.rateDialogue s related h st).bind (searchDialogue sel unit rest)).Dated := by
      apply Dated.bind _ hrest
      apply (firstRateDialogue_dated hsample h sel.now _).bind
      intro found
      split <;> trivial
    unfold searchDialogue
    apply Dated.bind
    · apply (matchDialogue_dated hsample 0 sel.simple).bind
      intro found
      split <;> trivial
    · intro st
      split
      next =>
        split
        next => exact hrate ..
        next =>
          split
          next => trivial
          next => exact hrate ..
      next => exact hrest st

/-- The judgement of a block as a dialogue with the timers: its winners, and whether past readings
were asked for. -/
def flushDialogue (sel : Selector) (unit : String) (samples : List Sample) :
    Dialogue (Except Failure (List Candidate) × Bool) :=
  if samples.isEmpty then .ended (.ok [], false)
  else
    let buffer := Sample.sorted samples
    (arbitrationDialogue unit buffer [] sel.masters).bind fun
      | .error e => .ended (.error e, false)
      | .ok a =>
        match a.blocking with
        | some m => .ended (.ok [m.candidate], false)
        | none =>
          match latestBy (·.sample.time) a.collected with
          | some m => .ended (.ok [m.candidate], false)
          | none =>
            (sel.searchDialogue unit (withRelated [] buffer) ⟨none, []⟩).bind fun
              | (some e, _) => .ended (.error e, sel.history.isSome)
              | (none, st) =>
                .ended (.ok (sel.policy.winners st.hits), sel.history.isSome && st.history.isSome)

theorem flush_eq (sel : Selector) (unit : String) (samples : List Sample) (t : Timers) :
    sel.flush unit samples t =
      ⟨((sel.flushDialogue unit samples).hold t).1.1, ((sel.flushDialogue unit samples).hold t).1.2,
        ((sel.flushDialogue unit samples).hold t).2⟩ := by
  unfold flushDialogue flush
  split
  next => rfl
  next =>
    dsimp only [arbitrate]
    rw [hold_bind, hold_arbitrationDialogue]
    obtain ⟨found, t'⟩ := arbitrateFrom unit (Sample.sorted samples) [] sel.masters t
    cases found with
    | error e => rfl
    | ok a =>
      dsimp only
      cases a.blocking with
      | some m => rfl
      | none =>
        dsimp only
        cases latestBy (fun m : MasterMatch => m.sample.time) a.collected with
        | some m => rfl
        | none =>
          have hsearch := sel.search_eq unit (withRelated [] (Sample.sorted samples)) ⟨none, []⟩ t'
          dsimp only [flushOrdinary]
          rw [hold_bind, show (⟨t', none, []⟩ : Search) = .of ⟨none, []⟩ t' from rfl, hsearch]
          obtain ⟨⟨failed, st⟩, t''⟩ :=
            (sel.searchDialogue unit (withRelated [] (Sample.sorted samples)) ⟨none, []⟩).hold t'
          cases failed <;> rfl

theorem flushDialogue_dated (sel : Selector) (unit : String) (hs : ∀ s ∈ samples, s.Dated) :
    (sel.flushDialogue unit samples).Dated := by
  have hsorted : ∀ s ∈ Sample.sorted samples, s.Dated := fun s h => hs s (List.mem_mergeSort.mp h)
  have hrelated : ∀ p ∈ withRelated [] (Sample.sorted samples), p.1.Dated :=
    fun p h => hsorted _ (mem_of_withRelated h)
  unfold flushDialogue
  split
  next => trivial
  next =>
    apply (arbitrationDialogue_dated unit hsorted [] sel.masters).bind
    intro found
    split
    next => trivial
    next =>
      split
      next => trivial
      next =>
        split
        next => trivial
        next =>
          apply (sel.searchDialogue_dated unit hrelated _).bind
          intro out
          split <;> trivial

/-- The uses that judging a block makes of the timers. -/
def timerUses (sel : Selector) (unit : String) (samples : List Sample) (t : Timers) :
    List TimerUse := (sel.flushDialogue unit samples).uses t

/-- A block that is judged a second time, with the timers that judging it has left, makes the same
uses of the timers exactly when each question put to a timer before the block drops it for the first
time has the same answer from the record that the block leaves. It has the same winners then, and
changes no record. -/
theorem flush_again (sel : Selector) (unit : String) {samples : List Sample} {t : Timers}
    (hr : t.Reliable) (hs : ∀ s ∈ samples, s.Dated) :
    let first := sel.flush unit samples t
    let again := sel.flush unit samples first.timers
    (Timers.Steadfast (sel.timerUses unit samples t) first.timers ↔
      sel.timerUses unit samples first.timers = sel.timerUses unit samples t) ∧
    (Timers.Steadfast (sel.timerUses unit samples t) first.timers →
      again.winners = first.winners ∧ again.asked = first.asked ∧
        ∀ key, again.timers.find? key = first.timers.find? key) := by
  intro first again
  have hfirst : first.timers = ((sel.flushDialogue unit samples).hold t).2 := by
    rw [show first = sel.flush unit samples t from rfl, flush_eq]
  have hagain : again = sel.flush unit samples first.timers := rfl
  obtain ⟨hiff, hsame⟩ := Dialogue.hold_again hr (sel.flushDialogue_dated unit hs)
  rw [← hfirst] at hiff hsame
  refine ⟨hiff, ?_⟩
  intro hsteady
  obtain ⟨hresult, hfind⟩ := hsame hsteady
  rw [hagain, show first.winners = _ from congrArg Flush.winners (sel.flush_eq unit samples t),
    show first.asked = _ from congrArg Flush.asked (sel.flush_eq unit samples t), flush_eq]
  exact ⟨congrArg Prod.fst hresult, congrArg Prod.snd hresult, hfind⟩

/-- One rule that asks for ten minutes of "Tag1" at 1. -/
def tenMinutes : Selector := ⟨[], [.reads "Tag1" 1 10], [], .single, none, 0⟩

theorem tenMinutes_flush (h : samples.Pairwise fun a b => a.time ≤ b.time) (t : Timers) :
    tenMinutes.flush "101" samples t =
      if samples.isEmpty then ⟨.ok [], false, t⟩
      else tenMinutes.flushOrdinary "101" samples t := by
  unfold flush
  rw [Sample.sorted_of_ordered h]
  rfl

/-- The lamp comes back at last, and the timer is dropped after the fault has been found. -/
def backAtLast : List Sample :=
  [.reading "Tag1" 1 0, .reading "Tag1" 1 10, .reading "Tag1" 0 11]

/-- Found from no record, the fault is found again, since no record is left. -/
theorem backAtLast_again :
    (tenMinutes.flush "101" backAtLast (.empty true)).winners.toOption.map (·.length) = some 1 ∧
      (tenMinutes.flush "101" backAtLast
        (tenMinutes.flush "101" backAtLast (.empty true)).timers).winners =
          (tenMinutes.flush "101" backAtLast (.empty true)).winners := by
  have hordered : backAtLast.Pairwise fun a b => a.time ≤ b.time := by decide
  have hdated : ∀ s ∈ backAtLast, s.Dated := by decide
  obtain ⟨hiff, hsame⟩ := tenMinutes.flush_again "101" (Timers.empty_reliable true) hdated
  have huses : tenMinutes.timerUses "101" backAtLast
      (tenMinutes.flush "101" backAtLast (.empty true)).timers =
        tenMinutes.timerUses "101" backAtLast (.empty true) := by
    rw [tenMinutes_flush hordered]
    unfold timerUses flushDialogue
    rw [Sample.sorted_of_ordered hordered]
    decide +kernel
  refine ⟨?_, (hsame (hiff.mpr huses)).1⟩
  rw [tenMinutes_flush hordered]
  decide +kernel

/-- The lamp fails once more after it came back. -/
def downOnceMore : List Sample := backAtLast ++ [.reading "Tag1" 1 12]

/-- What is found the first time is not found the second time, when the timer has started with the
second failure. -/
theorem downOnceMore_lost :
    ¬ ∀ (sel : Selector) (unit : String) (samples : List Sample) (t : Timers), t.Reliable →
      (∀ s ∈ samples, s.Dated) → samples.Pairwise (fun a b => a.time ≤ b.time) →
        (sel.flush unit samples (sel.flush unit samples t).timers).winners =
          (sel.flush unit samples t).winners ∧
        ∀ key, (sel.flush unit samples (sel.flush unit samples t).timers).timers.find? key =
          (sel.flush unit samples t).timers.find? key := by
  intro h
  have hordered : downOnceMore.Pairwise fun a b => a.time ≤ b.time := by decide
  have hsame := (h tenMinutes "101" downOnceMore (.empty true) (Timers.empty_reliable true)
    (by decide) hordered).1
  simp only [tenMinutes_flush hordered] at hsame
  have hcount := congrArg (fun w => w.toOption.map (·.length)) hsame
  revert hcount
  decide +kernel

end Selector

end FaultDesk
