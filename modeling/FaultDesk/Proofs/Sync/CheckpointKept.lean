import FaultDesk.Proofs.Sync.Passage
import FaultDesk.Sync.Job

/-!
What leaves the checkpoint alone. All that a run calls upon does so, but for the call that moves the
checkpoint in the end; while the clock goes on, the stored instant stays what it was.
-/

namespace FaultDesk

/-! ## The stored instant -/

namespace Checkpoint

variable {r : Register} {key : String} {t now : Instant}

/-- The instant that is stored as the checkpoint of a key. -/
def held? (r : Register) (key : String) : Option Instant :=
  (stored? (valueOf r key)).bind (·.instant?)

/-- The checkpoint of a key when the clock is looked at twice: once for whether what is stored lies
ahead, and once for what is given instead. -/
def getNoting (r : Register) (key : String) (lookback : Double) (seen now : Instant) :
    Except Failure Instant :=
  match r.access with
  | .error _ => floor lookback now
  | .ok _ =>
    match stored? (valueOf r key) with
    | none => floor lookback now
    | some s =>
      match s.instant? with
      | none => .error .timeOutOfRange
      | some t => if seen < t then floor lookback now else .ok t

theorem getNoting_self (r : Register) (key : String) (lookback : Double) (now : Instant) :
    getNoting r key lookback now now = get r key lookback now := rfl

/-- A checkpoint that does not lie ahead is read as it is stored. -/
theorem getNoting_of_held {lookback : Double} {seen : Instant} (haccess : r.access = .ok ())
    (hheld : held? r key = some t) (hseen : t ≤ seen) : getNoting r key lookback seen now = .ok t := by
  obtain ⟨s, hstored, hinstant⟩ := Option.bind_eq_some_iff.mp hheld
  simp only [getNoting, haccess, hstored, hinstant, if_neg (Int.not_lt.mpr hseen)]

/-- Setting a checkpoint to an instant of the calendar stores it, or now if that is earlier. -/
theorem held?_set_of_calendar (key : String) (haccess : r.access = .ok ()) (hnow : 0 ≤ now)
    (hpast : 0 ≤ t) (hlimit : t < Instant.limit) :
    (set r key (.utc t) now).2.access = .ok () ∧
      held? (set r key (.utc t) now).2 key = some (min t now) := by
  have hmin : 0 ≤ min t now ∧ min t now < Instant.limit :=
    ⟨Int.le_min.mpr ⟨hpast, hnow⟩, Int.lt_of_le_of_lt (Int.min_le_left ..) hlimit⟩
  rw [set_utc haccess key hpast hlimit now]
  refine ⟨haccess, ?_⟩
  have hvalue : valueOf { r with settings := written r.settings key (Stamp.utc (min t now)).text } key =
      some (Stamp.utc (min t now)).text := valueOf_written r.settings key _
  rw [held?, hvalue, stored?_text hmin.1 hmin.2]
  exact Stamp.instant?_utc hmin

/-- Outside the calendar there is nothing to set a checkpoint to. -/
theorem set_of_not_calendar (h : ¬ (0 ≤ t ∧ t < Instant.limit)) :
    set r key (.utc t) now = (.error .timeOutOfRange, r) := by
  have hnone : (Stamp.utc t).instant? = none := by
    change Instant.check? (t - 0) = none
    rw [Int.sub_zero]
    exact if_neg h
  unfold set
  rw [hnone]

/-- Setting a checkpoint stores the instant, or now if that is earlier; an instant outside the calendar
leaves everything as it is. -/
theorem held?_set (key : String) (haccess : r.access = .ok ()) (hnow : 0 ≤ now) (l : Instant) :
    (set r key (.utc l) now).2.access = .ok () ∧
      ((set r key (.utc l) now).2 = r ∨ held? (set r key (.utc l) now).2 key = some (min l now)) := by
  by_cases hcalendar : 0 ≤ l ∧ l < Instant.limit
  · obtain ⟨hkept, hheld⟩ := held?_set_of_calendar key haccess hnow hcalendar.1 hcalendar.2
    exact ⟨hkept, Or.inr hheld⟩
  · rw [set_of_not_calendar hcalendar]
    exact ⟨haccess, Or.inl rfl⟩

/-- A checkpoint that is set without fail is stored. -/
theorem held?_of_set_ok (key : String) (haccess : r.access = .ok ()) (hnow : 0 ≤ now)
    (h : (set r key (.utc t) now).1 = .ok ()) :
    (set r key (.utc t) now).2.access = .ok () ∧
      held? (set r key (.utc t) now).2 key = some (min t now) := by
  by_cases hcalendar : 0 ≤ t ∧ t < Instant.limit
  · exact held?_set_of_calendar key haccess hnow hcalendar.1 hcalendar.2
  · rw [set_of_not_calendar hcalendar] at h
    cases h

end Checkpoint

open Checkpoint

/-! ## Services -/

section Guarded

variable {σ α : Type} (register : σ → Register) (key : String)

/-- From one world to a later one in which the checkpoint is as it was. -/
structure World.Leaves (w w' : World σ) : Prop where
  clock : w.now ≤ w'.now
  access : (register w.rest).access = .ok () → (register w'.rest).access = .ok ()
  value : valueOf (register w'.rest) key = valueOf (register w.rest) key

/-- A service that leaves the checkpoint alone. -/
def Serving.Leaves (service : Serving σ α) : Prop :=
  ∀ w : World σ, w.Leaves register key (service w).2

/-- Services under which nothing changes the checkpoint of a key but the call that moves it, and the
clock does not go back. Whatever samples the streams hold, they may lie ahead of the clock. -/
structure Services.Tends (p : Services σ) (lookback : Double) : Prop where
  rules : p.rules.Leaves register key
  source : ∀ c, (p.source c).Leaves register key
  store : ∀ c, (p.store c).Leaves register key
  checkpoint : ∀ w, ∃ seen now, w.now ≤ seen ∧
    (p.checkpoint w).1 = getNoting (register w.rest) key lookback seen now
  reading : p.checkpoint.Leaves register key
  communication : ∀ c, (p.communication c).Leaves register key
  power : ∀ c, (p.power c).Leaves register key
  stream : ∀ c since, (p.stream c since).Leaves register key
  elapse : ∀ w : World σ, w.Leaves register key (p.elapse w)
  find : ∀ c unit tag, (p.find c unit tag).Leaves register key
  enter : ∀ c winner, (p.enter c winner).Leaves register key
  move : ∀ l w, ∃ now, w.now ≤ now ∧ now ≤ (p.move l w).2.now ∧
    (p.move l w).1 = (set (register w.rest) key (.utc l) now).1 ∧
    register (p.move l w).2.rest = (set (register w.rest) key (.utc l) now).2

end Guarded

namespace World

variable {σ : Type} {register : σ → Register} {key : String} {w w' w'' : World σ}

theorem Leaves.refl (w : World σ) : w.Leaves register key w := ⟨Int.le_refl _, id, rfl⟩

theorem Leaves.trans (h : w.Leaves register key w') (h' : w'.Leaves register key w'') :
    w.Leaves register key w'' :=
  ⟨Int.le_trans h.clock h'.clock, h'.access ∘ h.access, h'.value.trans h.value⟩

/-- The leases have no part in it. -/
theorem Leaves.lending (h : w.Leaves register key w') (leases : LeaseTable) :
    w.Leaves register key { w' with leases } := ⟨h.clock, h.access, h.value⟩

theorem Leaves.held? (h : w.Leaves register key w') :
    held? (register w'.rest) key = held? (register w.rest) key := by
  unfold Checkpoint.held?
  rw [h.value]

end World

/-- An entry into the register leaves the checkpoint alone. -/
theorem Desk.leaves_enter (d : Desk) (c : Config) (winner : Candidate) :
    (d.services.enter c winner).Leaves (fun kept => kept.1) d.runKey := by
  intro w
  have hsettings (k : Clerk) := w.rest.1.enter_settings k w.now winner
  have hdown (k : Clerk) := w.rest.1.enter_down k w.now winner
  unfold Desk.services
  dsimp only
  split
  next =>
    refine ⟨Int.le_refl _, fun haccess => ?_, ?_⟩
    · unfold Register.access at haccess ⊢
      dsimp only
      rw [hdown]
      exact haccess
    · unfold valueOf Register.setting?
      dsimp only
      rw [hsettings]
  next => exact ⟨Int.le_refl _, id, rfl⟩

/-- The checkpoint of a desk is moved where the clock stands. -/
theorem Desk.move_services (d : Desk) (l : Instant) (w : World (Register × Nat)) :
    (d.services.move l w).1 = (set w.rest.1 d.runKey (.utc l) w.now).1 ∧
      (d.services.move l w).2.now = w.now ∧
      (d.services.move l w).2.rest.1 = (set w.rest.1 d.runKey (.utc l) w.now).2 := by
  refine ⟨?_, rfl, rfl⟩
  unfold Desk.services
  dsimp only
  cases (set w.rest.1 d.runKey (.utc l) w.now).1 <;> rfl

/-- The services of a desk leave its checkpoint to the call that moves it, whatever its streams hold. -/
theorem Desk.services_tends (d : Desk) :
    d.services.Tends (fun kept => kept.1) d.runKey d.lookback where
  rules := World.Leaves.refl
  source _ := World.Leaves.refl
  store _ := World.Leaves.refl
  checkpoint w := ⟨w.now, w.now, Int.le_refl _, rfl⟩
  reading := World.Leaves.refl
  communication _ := World.Leaves.refl
  power _ := World.Leaves.refl
  stream _ _ := World.Leaves.refl
  elapse := World.Leaves.refl
  find _ _ _ := World.Leaves.refl
  enter c winner := d.leaves_enter c winner
  move l w := by
    obtain ⟨hgiven, hnow, hregister⟩ := d.move_services l w
    exact ⟨w.now, Int.le_refl _, Int.le_of_eq hnow.symm, hgiven, hregister⟩

/-! ## The work of a run -/

section Courses

variable {σ : Type} (register : σ → Register) (key : String)

/-- From one course to a later one of the same run in which the checkpoint is as it was, where it is
stored and in what has been noted of it. -/
structure Course.Spares (s s' : Course σ) : Prop where
  leaves : s.world.Leaves register key s'.world
  since : s'.since = s.since
  moved : s'.moved = s.moved

/-- And nothing more has been taken from the stream. -/
structure Course.Idles (s s' : Course σ) : Prop extends Course.Spares register key s s' where
  latest : s'.run.latest = s.run.latest

end Courses

namespace Course

variable {σ : Type} {register : σ → Register} {key : String} {s s' s'' : Course σ}

theorem Spares.trans (h : s.Spares register key s') (h' : s'.Spares register key s'') :
    s.Spares register key s'' :=
  ⟨h.leaves.trans h'.leaves, h'.since.trans h.since, h'.moved.trans h.moved⟩

theorem Idles.refl (s : Course σ) : s.Idles register key s := ⟨⟨.refl _, rfl, rfl⟩, rfl⟩

theorem Idles.trans (h : s.Idles register key s') (h' : s'.Idles register key s'') :
    s.Idles register key s'' := ⟨h.toSpares.trans h'.toSpares, h'.latest.trans h.latest⟩

end Course

namespace Working

variable {σ α β : Type} {register : σ → Register} {key : String} {work : Working σ α}
  {f : α → Working σ β}

/-- Work that leaves the checkpoint alone. -/
def Sparing (register : σ → Register) (key : String) (work : Working σ α) : Prop :=
  ∀ s : Course σ, s.Spares register key (work.outcome s).2

/-- Work that leaves the stream alone, too. -/
def Idling (register : σ → Register) (key : String) (work : Working σ α) : Prop :=
  ∀ s : Course σ, s.Idles register key (work.outcome s).2

theorem Idling.sparing (h : work.Idling register key) : work.Sparing register key :=
  fun s => (h s).toSpares

theorem Sparing.bind (hwork : work.Sparing register key) (hf : ∀ a, (f a).Sparing register key) :
    (work >>= f).Sparing register key := by
  intro s
  have hdone := hwork s
  rw [outcome_bind]
  generalize work.outcome s = done at hdone ⊢
  obtain ⟨result, t⟩ := done
  cases result with
  | error e => exact hdone
  | ok a => exact hdone.trans (hf a t)

theorem sparing_update {f : Course σ → Course σ}
    (h : ∀ s : Course σ, s.Spares register key (f s)) : (update f).Sparing register key := h

theorem idling_ask {call : Call} {service : Serving σ α} (h : service.Leaves register key) :
    (ask call service).Idling register key := fun s => ⟨⟨h s.world, rfl, rfl⟩, rfl⟩

theorem idling_attempt {call : Call} {service : Serving σ (List Sample)}
    (h : service.Leaves register key) : (attempt call service).Idling register key :=
  fun s => ⟨⟨h s.world, rfl, rfl⟩, rfl⟩

theorem idling_renew : (renew : Working σ Unit).Idling register key :=
  fun s => ⟨⟨(World.Leaves.refl s.world).lending _, rfl, rfl⟩, rfl⟩

theorem idling_close (broken : Option Failure) :
    (close broken : Working σ Unit).Idling register key := by
  intro s
  cases broken <;> exact ⟨⟨.refl _, rfl, rfl⟩, rfl⟩

end Working

namespace Services

open Working

variable {σ : Type} {register : σ → Register} {key : String} {lookback : Double} {p : Services σ}
  {c : Config} {simulate : Bool}

theorem idling_judge (p : Services σ) (c : Config) (b : Block) :
    (p.judge c b).Idling register key := by
  intro s
  unfold judge outcome
  dsimp only
  split
  next => exact ⟨⟨.refl _, rfl, rfl⟩, rfl⟩
  next => exact ⟨⟨.refl _, rfl, rfl⟩, rfl⟩

section Tended

variable (hp : p.Tends register key lookback)
include hp

theorem idles_settle (looked : Except Failure (Option Incident) × Course σ) (winner : Candidate) :
    looked.2.Idles register key (p.settle c simulate looked winner) := by
  obtain ⟨found, s⟩ := looked
  unfold settle
  dsimp only
  rcases Handled.take_cases (p.book c found) (closedSet c.closedStatuses) simulate winner
      { s.run.handled with counts.candidates := s.run.handled.counts.candidates + 1 } s with
    hsame | ⟨-, -, hentered⟩
  · rw [hsame]
    exact ⟨⟨.refl _, rfl, rfl⟩, rfl⟩
  · rw [hentered]
    exact ⟨⟨hp.enter c winner s.world, rfl, rfl⟩, rfl⟩

theorem idles_takeWinner (s : Course σ) (winner : Candidate) :
    s.Idles register key (p.takeWinner c simulate s winner) := by
  unfold takeWinner
  split
  next => exact idles_settle hp (.ok none, s) winner
  next =>
    have hlooked : s.Idles register key (p.lookUp c winner.unit winner.tag s).2 :=
      ⟨⟨hp.find c winner.unit winner.tag s.world, rfl, rfl⟩, rfl⟩
    exact hlooked.trans (idles_settle hp _ winner)

theorem idles_giveOut (winners : List Candidate) (s : Course σ) :
    s.Idles register key (p.giveOut c simulate winners s) := by
  have hfold (fresh : List Candidate) (s : Course σ) :
      s.Idles register key (fresh.foldl (p.takeWinner c simulate) s) := by
    induction fresh generalizing s with
    | nil => exact .refl s
    | cons winner rest ih => exact (idles_takeWinner hp s winner).trans (ih _)
  have hgiven : s.Idles register key
      { s with run.given := (Selector.giveOut s.run.given none winners).2.1 } :=
    ⟨⟨.refl _, rfl, rfl⟩, rfl⟩
  exact hgiven.trans (hfold _ _)

theorem sparing_takeBlock (b : Block) (next : Option Block) :
    (p.takeBlock c simulate b next).Sparing register key :=
  .bind (sparing_update fun s => ⟨hp.elapse s.world, rfl, rfl⟩) fun _ =>
    idling_renew.sparing.bind fun _ => (p.idling_judge c b).sparing.bind fun winners =>
    sparing_update fun s => (idles_giveOut hp winners s).toSpares

theorem sparing_takeBlocks (bs : List (Block × Option Block)) :
    (p.takeBlocks c simulate bs).Sparing register key := by
  induction bs with
  | nil => exact sparing_update fun s => ⟨hp.elapse s.world, rfl, rfl⟩
  | cons entry rest ih => exact (sparing_takeBlock hp entry.1 entry.2).bind fun _ => ih

end Tended

/-- The last call moves the checkpoint to the latest sample, or there is no such call. -/
theorem conclude_cases (p : Services σ) (s : Course σ) :
    (p.conclude.outcome s = (.ok (), s)) ∨
      ∃ l, s.run.latest = some l ∧ (p.conclude.outcome s).2.world = (p.move l s.world).2 ∧
        (p.conclude.outcome s).2.since = s.since ∧
        (p.conclude.outcome s).2.calls = s.calls ++ [⟨.move l, raisedBy (p.move l s.world).1⟩] ∧
        ((p.move l s.world).1 = .ok () ∧ (p.conclude.outcome s).2.moved = some l ∨
          (p.conclude.outcome s).2.moved = s.moved) := by
  unfold conclude
  rw [outcome_inspect_bind]
  cases s.run.latest with
  | none => exact Or.inl rfl
  | some l =>
    refine Or.inr ⟨l, rfl, ?_⟩
    dsimp only
    rw [outcome_ask_bind]
    rcases p.move l s.world with ⟨given, world⟩
    cases given with
    | error e => exact ⟨rfl, rfl, rfl, Or.inr rfl⟩
    | ok u => exact ⟨rfl, rfl, rfl, Or.inl ⟨rfl, rfl⟩⟩

end Services

end FaultDesk
