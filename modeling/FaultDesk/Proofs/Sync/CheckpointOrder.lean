import FaultDesk.Proofs.Sync.CheckpointKept
import FaultDesk.Proofs.Sync.ControlState

/-!
The checkpoint never goes back and never lies ahead of the clock. Until its last call a run leaves it
alone; then it is moved to the latest sample of the stream or to the clock, whichever comes first, and
both are behind it: the stream gives only samples after the checkpoint that was read, and the clock
does not go back. What else a run meets with, and how it ends, makes no difference.
-/

namespace FaultDesk

open Checkpoint

/-! ## What a run is given -/

section Guarded

variable {σ : Type} (register : σ → Register) (key : String)

/-- The checkpoint is not stored where it cannot be reached, nor ahead of the clock. -/
structure World.Sound (w : World σ) : Prop where
  access : (register w.rest).access = .ok ()
  past : 0 ≤ w.now
  behind : ∀ t, held? (register w.rest) key = some t → t ≤ w.now

/-- Services that keep the checkpoint of a key in a register, whatever else they do and however they
fail: it is read and moved by looking at the clock meanwhile, nothing else changes it, the clock does
not go back, and a stream that is opened holds samples after the given time only. -/
structure Services.Keeps (p : Services σ) (lookback : Double) : Prop where
  rules : p.rules.Leaves register key
  source : ∀ c, (p.source c).Leaves register key
  store : ∀ c, (p.store c).Leaves register key
  checkpoint : ∀ w, ∃ seen now, w.now ≤ seen ∧ seen ≤ now ∧ now ≤ (p.checkpoint w).2.now ∧
    (p.checkpoint w).1 = getNoting (register w.rest) key lookback seen now
  reading : p.checkpoint.Leaves register key
  communication : ∀ c, (p.communication c).Leaves register key
  power : ∀ c, (p.power c).Leaves register key
  stream : ∀ c since, (p.stream c since).Leaves register key
  later : ∀ c since w samples broken, (p.stream c since w).1 = .ok (samples, broken) →
    ∀ s ∈ samples, since < s.time
  elapse : ∀ w : World σ, w.Leaves register key (p.elapse w)
  find : ∀ c unit tag, (p.find c unit tag).Leaves register key
  enter : ∀ c winner, (p.enter c winner).Leaves register key
  move : ∀ l w, ∃ now, w.now ≤ now ∧ now ≤ (p.move l w).2.now ∧
    (p.move l w).1 = (set (register w.rest) key (.utc l) now).1 ∧
    register (p.move l w).2.rest = (set (register w.rest) key (.utc l) now).2

end Guarded

namespace World

variable {σ : Type} {register : σ → Register} {key : String} {w w' : World σ} {t : Instant}

theorem Leaves.sound (h : w.Leaves register key w') (hw : w.Sound register key) :
    w'.Sound register key := by
  refine ⟨h.access hw.access, Int.le_trans hw.past h.clock, ?_⟩
  intro t ht
  rw [h.held?] at ht
  exact Int.le_trans (hw.behind t ht) h.clock

/-- From one world to a later one in which the checkpoint is as it was, or is the earlier one of a later
time and a reading of the clock. -/
structure Advances (register : σ → Register) (key : String) (w w' : World σ) : Prop where
  clock : w.now ≤ w'.now
  access : (register w'.rest).access = .ok ()
  moved : Checkpoint.held? (register w'.rest) key = Checkpoint.held? (register w.rest) key ∨
    ∃ l now, Checkpoint.held? (register w'.rest) key = some (min l now) ∧ w.now ≤ now ∧ now ≤ w'.now ∧
      ∀ t, Checkpoint.held? (register w.rest) key = some t → t < l

theorem Leaves.advances (h : w.Leaves register key w') (hw : w.Sound register key) :
    w.Advances register key w' := ⟨h.clock, h.access hw.access, Or.inl h.held?⟩

theorem Advances.lending (h : w.Advances register key w') (leases : LeaseTable) :
    w.Advances register key { w' with leases } := ⟨h.clock, h.access, h.moved⟩

theorem Advances.sound (h : w.Advances register key w') (hw : w.Sound register key) :
    w'.Sound register key := by
  refine ⟨h.access, Int.le_trans hw.past h.clock, ?_⟩
  intro t ht
  rcases h.moved with hsame | ⟨l, now, hmoved, -, hnow, -⟩
  · rw [hsame] at ht
    exact Int.le_trans (hw.behind t ht) h.clock
  · obtain rfl := Option.some.inj (hmoved.symm.trans ht)
    exact Int.le_trans (Int.min_le_right l now) hnow

/-- A checkpoint that is stored stays stored, and does not go back. -/
theorem Advances.kept (h : w.Advances register key w') (hw : w.Sound register key)
    (ht : Checkpoint.held? (register w.rest) key = some t) :
    ∃ t', Checkpoint.held? (register w'.rest) key = some t' ∧ t ≤ t' := by
  rcases h.moved with hsame | ⟨l, now, hmoved, hnow, -, hlater⟩
  · exact ⟨t, hsame.trans ht, Int.le_refl t⟩
  · refine ⟨min l now, hmoved, Int.le_min.mpr ⟨Int.le_of_lt (hlater t ht), ?_⟩⟩
    exact Int.le_trans (hw.behind t ht) hnow

end World

theorem Services.Keeps.tends {σ : Type} {register : σ → Register} {key : String} {p : Services σ}
    {lookback : Double} (h : p.Keeps register key lookback) : p.Tends register key lookback where
  rules := h.rules
  source := h.source
  store := h.store
  checkpoint w := by
    obtain ⟨seen, now, hseen, -, -, hgiven⟩ := h.checkpoint w
    exact ⟨seen, now, hseen, hgiven⟩
  reading := h.reading
  communication := h.communication
  power := h.power
  stream := h.stream
  elapse := h.elapse
  find := h.find
  enter := h.enter
  move := h.move

/-- The services of a desk keep its checkpoint, as far as its streams begin after the time that is asked
for. -/
theorem Desk.services_keeps {d : Desk}
    (hlater : ∀ c since rows broken, d.stream (.ofConfig c) since = .ok (rows, broken) →
      ∀ s ∈ rows.flatMap (·.2), since < s.time) :
    d.services.Keeps (fun kept => kept.1) d.runKey d.lookback := by
  have hstill {w : World (Register × Nat)} : w.Leaves (fun kept => kept.1) d.runKey w :=
    World.Leaves.refl w
  refine ⟨fun _ => hstill, fun _ _ => hstill, fun _ _ => hstill, ?_, fun _ => hstill,
    fun _ _ => hstill, fun _ _ => hstill, fun _ _ _ => hstill, ?_, fun _ => hstill,
    fun _ _ _ _ => hstill, d.leaves_enter, ?_⟩
  · exact fun w => ⟨w.now, w.now, Int.le_refl _, Int.le_refl _, Int.le_refl _, rfl⟩
  · intro c since w samples broken h s hs
    cases hstream : d.stream (.ofConfig c) since with
    | error f =>
      simp only [Desk.services, hstream, Except.map] at h
      cases h
    | ok read =>
      simp only [Desk.services, hstream, Except.map, Except.ok.injEq, Prod.mk.injEq] at h
      obtain ⟨rfl, -⟩ := h
      exact hlater c since read.1 read.2 hstream s hs
  · intro l w
    obtain ⟨hgiven, hnow, hregister⟩ := d.move_services l w
    exact ⟨w.now, Int.le_refl _, Int.le_of_eq hnow.symm, hgiven, hregister⟩

/-! ## What is taken from a stream -/

theorem Run.lt_latest_reading {r : Run} {b : Block} {next : Option Block} {t l : Instant}
    (hreads : ∀ s ∈ Selector.readsFor r.begun b next, t < s.time)
    (hbefore : ∀ l, r.latest = some l → t < l) (hl : (r.reading b next).latest = some l) : t < l := by
  have hfold (ss : List Sample) (before : Option Instant) (hss : ∀ s ∈ ss, t < s.time)
      (hbefore : ∀ l, before = some l → t < l)
      (hl : SelectionEvent.latest before (ss.map .read) = some l) : t < l := by
    induction ss generalizing before with
    | nil => exact hbefore l hl
    | cons s rest ih =>
      refine ih _ (fun x hx => hss x (List.mem_cons_of_mem s hx)) ?_ hl
      rintro m ⟨⟩
      exact Int.lt_of_lt_of_le (hss s List.mem_cons_self) (Int.le_max_right ..)
  exact hfold _ r.latest hreads hbefore hl

namespace Desk

theorem mem_of_mem_followed {bs : List Block} {x : Block × Option Block} (h : x ∈ followed bs) :
    x.1 ∈ bs ∧ ∀ b, x.2 = some b → b ∈ bs := by
  induction bs with
  | nil => cases h
  | cons b rest ih =>
    rcases List.mem_cons.mp h with rfl | h
    · refine ⟨List.mem_cons_self, fun b' hb' => ?_⟩
      exact List.mem_cons_of_mem b (List.mem_of_head? hb')
    · obtain ⟨hfirst, hnext⟩ := ih h
      exact ⟨List.mem_cons_of_mem b hfirst, fun b' hb' => List.mem_cons_of_mem b (hnext b' hb')⟩

/-- What is taken from complete blocks is taken from the stream. -/
theorem mem_stream_of_reads {stream computed : List Sample} {breaks begun : Bool}
    {x : Block × Option Block} {s : Sample} (hx : x ∈ completed stream computed breaks)
    (hs : s ∈ Selector.readsFor begun x.1 x.2) : s ∈ stream := by
  have hblocks : x.1 ∈ blocks stream computed ∧ ∀ b, x.2 = some b → b ∈ blocks stream computed := by
    unfold completed at hx
    split at hx
    next =>
      obtain ⟨hfirst, hnext⟩ := mem_of_mem_followed (List.dropLast_subset _ hx)
      exact ⟨List.mem_append_left _ hfirst, fun b hb => List.mem_append_left _ (hnext b hb)⟩
    next => exact mem_of_mem_followed hx
  have hstreamed {b : Block} (hb : b ∈ blocks stream computed) (hs : s ∈ b.streamed) : s ∈ stream := by
    rw [← streamed_blocks stream computed]
    exact List.mem_flatMap.mpr ⟨b, hb, hs⟩
  unfold Selector.readsFor at hs
  rcases List.mem_append.mp hs with hs | hs
  · exact hstreamed hblocks.1 (List.mem_of_mem_drop hs)
  · obtain ⟨b, hb, hhead⟩ := Option.bind_eq_some_iff.mp (Option.mem_toList.mp hs)
    exact hstreamed (hblocks.2 b hb) (List.mem_of_head? hhead)

end Desk

/-! ## The work of a run -/

namespace Working

variable {σ α β : Type} {P : Course σ → Prop} {Q : α → Prop} {R : β → Prop}

/-- Work that keeps a property of the course, and gives nothing but what another property allows. -/
def Holds (P : Course σ → Prop) (work : Working σ α) (Q : α → Prop) : Prop :=
  ∀ s, P s → P (work.outcome s).2 ∧ ∀ a, (work.outcome s).1 = .ok a → Q a

theorem Holds.bind {work : Working σ α} {f : α → Working σ β} (hwork : work.Holds P Q)
    (hf : ∀ a, Q a → (f a).Holds P R) : (work >>= f).Holds P R := by
  intro s hs
  obtain ⟨hdone, hgiven⟩ := hwork s hs
  rw [outcome_bind]
  generalize work.outcome s = done at hdone hgiven ⊢
  obtain ⟨result, t⟩ := done
  cases result with
  | error e => exact ⟨hdone, by rintro b ⟨⟩⟩
  | ok a => exact hf a (hgiven a rfl) t hdone

end Working

/-- A course that began in a world: the checkpoint is as it was there, and all samples that have been
taken are later. -/
structure Course.Beyond {σ : Type} (register : σ → Register) (key : String) (w : World σ)
    (s : Course σ) : Prop where
  leaves : w.Leaves register key s.world
  later : ∀ l, s.run.latest = some l → ∀ t, held? (register w.rest) key = some t → t < l

theorem Course.Beyond.idles {σ : Type} {register : σ → Register} {key : String} {w : World σ}
    {s s' : Course σ} (h : s.Beyond register key w) (hs : s.Idles register key s') :
    s'.Beyond register key w := ⟨h.leaves.trans hs.leaves, by rw [hs.latest]; exact h.later⟩

namespace Services

open Working

variable {σ α : Type} {register : σ → Register} {key : String} {lookback : Double} {w : World σ}
  {p : Services σ} {c : Config} {simulate : Bool} {Q : α → Prop}

theorem holds_ask {call : Call} {service : Serving σ α} (hservice : service.Leaves register key)
    (hgiven : ∀ w' : World σ, w.Leaves register key w' → ∀ a, (service w').1 = .ok a → Q a) :
    (ask call service).Holds (Course.Beyond register key w) Q := by
  intro s hs
  exact ⟨⟨hs.leaves.trans (hservice s.world), hs.later⟩, hgiven s.world hs.leaves⟩

theorem holds_update {f : Course σ → Course σ}
    (h : ∀ s, s.Beyond register key w → (f s).Beyond register key w) :
    (update f).Holds (Course.Beyond register key w) fun _ => True :=
  fun s hs => ⟨h s hs, fun _ _ => trivial⟩

/-- What is not taken from the stream makes no difference. -/
theorem holds_of_idling {work : Working σ α} (h : work.Idling register key) :
    work.Holds (Course.Beyond register key w) fun _ => True :=
  fun s hs => ⟨hs.idles (h s), fun _ _ => trivial⟩

variable (hp : p.Keeps register key lookback)
include hp

theorem holds_takeBlock {b : Block} {next : Option Block}
    (hlater : ∀ t, held? (register w.rest) key = some t →
      ∀ begun, ∀ s ∈ Selector.readsFor begun b next, t < s.time) :
    (p.takeBlock c simulate b next).Holds (Course.Beyond register key w) fun _ => True := by
  have hread : (update fun s => { s with world := p.elapse s.world, run := s.run.reading b next } :
      Working σ Unit).Holds (Course.Beyond register key w) fun _ => True := by
    refine holds_update fun s hs => ⟨hs.leaves.trans (hp.elapse s.world), ?_⟩
    intro l hl t ht
    exact Run.lt_latest_reading (hlater t ht _) (fun l hl => hs.later l hl t ht) hl
  refine hread.bind fun _ _ => (holds_of_idling idling_renew).bind fun _ _ =>
    (holds_of_idling (p.idling_judge c b)).bind fun winners _ => ?_
  exact holds_update fun s hs => hs.idles (idles_giveOut hp.tends winners s)

theorem holds_takeBlocks {bs : List (Block × Option Block)}
    (hlater : ∀ t, held? (register w.rest) key = some t →
      ∀ x ∈ bs, ∀ begun, ∀ s ∈ Selector.readsFor begun x.1 x.2, t < s.time) :
    (p.takeBlocks c simulate bs).Holds (Course.Beyond register key w) fun _ => True := by
  induction bs with
  | nil => exact holds_update fun s hs => ⟨hs.leaves.trans (hp.elapse s.world), hs.later⟩
  | cons x rest ih =>
    refine (holds_takeBlock hp fun t ht => hlater t ht x List.mem_cons_self).bind fun _ _ => ih ?_
    exact fun t ht y hy => hlater t ht y (List.mem_cons_of_mem x hy)

/-- Up to the end of the stream the checkpoint stays where it is, and what is taken from the stream is
later. -/
theorem holds_gather (hw : w.Sound register key) (simulate : Bool) :
    (p.gather simulate).Holds (Course.Beyond register key w) fun _ => True := by
  unfold gather
  refine (holds_of_idling (idling_ask hp.rules)).bind fun c _ =>
    (holds_of_idling (idling_ask (hp.source c))).bind fun _ _ =>
    (holds_of_idling (idling_ask (hp.store c))).bind fun _ _ => ?_
  have hsince : (ask .checkpoint p.checkpoint).Holds (Course.Beyond register key w) fun since =>
      ∀ t, held? (register w.rest) key = some t → t = since := by
    refine holds_ask hp.reading fun w' hleaves since hread t ht => ?_
    obtain ⟨seen, now, hseen, -, -, hget⟩ := hp.checkpoint w'
    have hsound := hleaves.sound hw
    have hheld : held? (register w'.rest) key = some t := hleaves.held?.trans ht
    rw [getNoting_of_held hsound.access hheld (Int.le_trans (hsound.behind t hheld) hseen)] at hget
    exact Except.ok.inj (hget.symm.trans hread)
  refine hsince.bind fun since hsince => ?_
  have hnoted : (update fun s => { s with since := some since } : Working σ Unit).Holds
      (Course.Beyond register key w) fun _ => True :=
    holds_update fun s hs => ⟨hs.leaves, hs.later⟩
  refine hnoted.bind fun _ _ =>
    (holds_of_idling (idling_attempt (hp.communication c))).bind fun communication _ =>
    (holds_of_idling (idling_attempt (hp.power c))).bind fun power _ => ?_
  have hstream : (ask .stream (p.stream c since)).Holds (Course.Beyond register key w) fun given =>
      ∀ s ∈ given.1, since < s.time :=
    holds_ask (hp.stream c since) fun w' _ given hgiven => hp.later c since w' given.1 given.2 hgiven
  refine hstream.bind fun given hgiven => ?_
  refine (holds_takeBlocks hp ?_).bind fun _ _ => holds_of_idling (idling_close given.2)
  intro t ht x hx begun s hs
  obtain rfl := hsince t ht
  exact hgiven s (Desk.mem_stream_of_reads hx hs)

/-- The last call moves the checkpoint on, or leaves it. -/
theorem advances_conclude (hw : w.Sound register key) {s : Course σ} (hs : s.Beyond register key w) :
    w.Advances register key (p.conclude.outcome s).2.world := by
  rcases p.conclude_cases s with hnone | ⟨l, hlatest, hworld, -, -, -⟩
  · rw [hnone]
    exact hs.leaves.advances hw
  · obtain ⟨now, hfrom, hto, -, hmoved⟩ := hp.move l s.world
    have hsound := hs.leaves.sound hw
    have hset := held?_set key hsound.access (Int.le_trans hsound.past hfrom) l
    rw [← hmoved, ← hworld] at hset
    rw [← hworld] at hto
    refine ⟨Int.le_trans hs.leaves.clock (Int.le_trans hfrom hto), hset.1, ?_⟩
    rcases hset.2 with hsame | hnew
    · rw [hsame]
      exact Or.inl hs.leaves.held?
    · exact Or.inr ⟨l, now, hnew, Int.le_trans hs.leaves.clock hfrom, hto, hs.later l hlatest⟩

theorem advances_work (hw : w.Sound register key) {s : Course σ} (hs : s.Beyond register key w) :
    w.Advances register key ((p.work simulate).outcome s).2.world := by
  obtain ⟨hgathered, -⟩ := holds_gather hp hw simulate s hs
  unfold work
  rw [outcome_bind]
  generalize (p.gather simulate).outcome s = done at hgathered ⊢
  obtain ⟨result, t⟩ := done
  cases result with
  | error e => exact hgathered.leaves.advances hw
  | ok u => exact advances_conclude hp hw hgathered

end Services

/-! ## Turns of a job -/

/-- One turn of a job: a run, or what happens between runs. -/
inductive JobTurn (σ : Type) where
  | run (p : Services σ) (owner : String)
  | meanwhile (change : Job σ → Job σ)

namespace JobTurn

variable {σ : Type}

def apply (j : Job σ) : JobTurn σ → Job σ
  | run p owner => (j.run p owner).2.2
  | meanwhile change => change j

/-- The checkpoint is left to the runs, and every run meets services that keep it. -/
def Keeps (register : σ → Register) (key : String) : JobTurn σ → Prop
  | run p _ => ∃ lookback, p.Keeps register key lookback
  | meanwhile change => ∀ j : Job σ, j.world.Leaves register key (change j).world

end JobTurn

namespace Job

variable {σ : Type} {register : σ → Register} {key : String} {lookback : Double} {j : Job σ}
  {p : Services σ}

/-- However a run ends, it leaves the checkpoint where it was or moves it on. -/
theorem advances_run (hp : p.Keeps register key lookback) (hj : j.world.Sound register key)
    (owner : String) : j.world.Advances register key (j.run p owner).2.2.world := by
  have hstart : (j.start owner).Beyond register key j.world :=
    ⟨(World.Leaves.refl j.world).lending _, by rintro l ⟨⟩⟩
  rcases j.run_cases p owner with ⟨-, ⟨leases, hworld⟩, -⟩ | ⟨-, ⟨leases, hworld⟩, -⟩
  · rw [hworld]
    exact ((World.Leaves.refl j.world).lending leases).advances hj
  · rw [hworld]
    exact (Services.advances_work hp hj hstart).lending leases

theorem advances_turn (hj : j.world.Sound register key) {x : JobTurn σ} (hx : x.Keeps register key) :
    j.world.Advances register key (x.apply j).world := by
  cases x with
  | run p owner =>
    obtain ⟨lookback, hp⟩ := hx
    exact advances_run hp hj owner
  | meanwhile change => exact (hx j).advances hj

/-- The job after some turns. -/
def after (j : Job σ) (turns : List (JobTurn σ)) : Job σ := turns.foldl JobTurn.apply j

theorem sound_after (hj : j.world.Sound register key) {turns : List (JobTurn σ)}
    (hturns : ∀ x ∈ turns, x.Keeps register key) : (j.after turns).world.Sound register key := by
  induction turns generalizing j with
  | nil => exact hj
  | cons x rest ih =>
    have hturn := advances_turn hj (hturns x List.mem_cons_self)
    exact ih (hturn.sound hj) fun y hy => hturns y (List.mem_cons_of_mem x hy)

theorem held?_after (hj : j.world.Sound register key) {turns : List (JobTurn σ)}
    (hturns : ∀ x ∈ turns, x.Keeps register key) {t : Instant}
    (ht : held? (register j.world.rest) key = some t) :
    ∃ t', held? (register (j.after turns).world.rest) key = some t' ∧ t ≤ t' := by
  induction turns generalizing j t with
  | nil => exact ⟨t, ht, Int.le_refl t⟩
  | cons x rest ih =>
    have hturn := advances_turn hj (hturns x List.mem_cons_self)
    obtain ⟨t₁, ht₁, hle⟩ := hturn.kept hj ht
    obtain ⟨t₂, ht₂, hle'⟩ := ih (hturn.sound hj)
      (fun y hy => hturns y (List.mem_cons_of_mem x hy)) ht₁
    exact ⟨t₂, ht₂, Int.le_trans hle hle'⟩

/-- Through any turns the stored checkpoint never lies ahead of the clock, and it neither goes back nor
gets lost. -/
theorem checkpoint_never_back (hj : j.world.Sound register key) {turns : List (JobTurn σ)}
    (hturns : ∀ x ∈ turns, x.Keeps register key) {m n : Nat} (hmn : m ≤ n) :
    (∀ t, held? (register (j.after (turns.take n)).world.rest) key = some t →
        t ≤ (j.after (turns.take n)).world.now) ∧
      ∀ t, held? (register (j.after (turns.take m)).world.rest) key = some t →
        ∃ t', held? (register (j.after (turns.take n)).world.rest) key = some t' ∧ t ≤ t' := by
  have htake (k : Nat) : ∀ x ∈ turns.take k, x.Keeps register key :=
    fun x hx => hturns x (List.mem_of_mem_take hx)
  refine ⟨(sound_after hj (htake n)).behind, fun t ht => ?_⟩
  obtain ⟨k, rfl⟩ := Nat.exists_eq_add_of_le hmn
  have hsplit : turns.take (m + k) = turns.take m ++ (turns.drop m).take k := List.take_add
  have hrest : j.after (turns.take (m + k)) =
      (j.after (turns.take m)).after ((turns.drop m).take k) := by
    rw [hsplit]
    exact List.foldl_append
  rw [hrest]
  refine held?_after (sound_after hj (htake m)) (fun x hx => htake (m + k) x ?_) ht
  rw [hsplit]
  exact List.mem_append_right _ hx

/-- A world a second later. -/
def tick (w : World Register) : World Register := { w with now := w.now + 1000000 }

/-- Services that take a second for each call. The only reading there is lies a minute behind the
second hour. -/
def slowServices : Services Register where
  rules w := (.ok .standard, tick w)
  source _ w := (.ok (), tick w)
  store _ w := (.ok (), tick w)
  checkpoint w := (Checkpoint.get w.rest "run" .zero w.now, tick w)
  communication _ w := (.error .readingsRefused, tick w)
  power _ w := (.ok [], tick w)
  stream _ since w :=
    (.ok ([⟨"101", "Tag1", .int 0, 2 * Span.hour + Span.minute, .unified, none⟩].filter
      (decide <| since < ·.time), none), tick w)
  elapse w := tick w
  past _ _ _ := .error .readingsRefused
  find _ _ _ w := (.ok none, tick w)
  enter _ _ w := (.ok (), tick w)
  move l w :=
    ((Checkpoint.set w.rest "run" (.utc l) w.now).1,
      tick { w with rest := (Checkpoint.set w.rest "run" (.utc l) w.now).2 })

theorem leaves_tick (w : World Register) : w.Leaves id "run" (tick w) :=
  ⟨Int.le_add_of_nonneg_right (by decide), id, rfl⟩

theorem slowServices_keeps : slowServices.Keeps id "run" .zero where
  rules := leaves_tick
  source _ := leaves_tick
  store _ := leaves_tick
  checkpoint w := ⟨w.now, w.now, Int.le_refl _, Int.le_refl _, (leaves_tick w).clock, rfl⟩
  reading := leaves_tick
  communication _ := leaves_tick
  power _ := leaves_tick
  stream _ _ := leaves_tick
  later _ since w samples broken h s hs := by
    obtain ⟨rfl, -⟩ := Prod.mk.inj (Except.ok.inj h)
    exact of_decide_eq_true (List.mem_filter.mp hs).2
  elapse := leaves_tick
  find _ _ _ := leaves_tick
  enter _ _ := leaves_tick
  move l w := ⟨w.now, Int.le_refl _, (leaves_tick w).clock, rfl, rfl⟩

def slowJob : Job Register where
  world := ⟨Span.hour, .empty, .empty⟩
  lease := .fresh "run" 600000000
  timers := .empty true
  simulates := false
  audit := []
  last := none

/-- A run at one o'clock, and another two hours later. -/
def slowTurns : List (JobTurn Register) :=
  [.run slowServices "first",
    .meanwhile fun j => { j with world.now := j.world.now + 2 * Span.hour },
    .run slowServices "second"]

/-- The reading lies ahead of the clock in the first run, which stores the time at which the checkpoint
is moved; the second run stores the time of the reading. -/
theorem slowJob_never_back :
    (∀ n, ∀ t, held? (slowJob.after (slowTurns.take n)).world.rest "run" = some t →
        t ≤ (slowJob.after (slowTurns.take n)).world.now) ∧
      held? (slowJob.after (slowTurns.take 1)).world.rest "run" = some (Span.hour + 9000000) ∧
      held? (slowJob.after (slowTurns.take 3)).world.rest "run" =
        some (2 * Span.hour + Span.minute) ∧
      ∃ t', held? (slowJob.after (slowTurns.take 3)).world.rest "run" = some t' ∧
        Span.hour + 9000000 ≤ t' := by
  have hsound : slowJob.world.Sound id "run" := ⟨rfl, by decide, by rintro t ⟨⟩⟩
  have hturns : ∀ x ∈ slowTurns, x.Keeps id "run" := by
    intro x hx
    simp only [slowTurns, List.mem_cons, List.not_mem_nil, or_false] at hx
    rcases hx with rfl | rfl | rfl
    · exact ⟨_, slowServices_keeps⟩
    · exact fun j => ⟨Int.le_add_of_nonneg_right (by decide), id, rfl⟩
    · exact ⟨_, slowServices_keeps⟩
  have hfirst : held? (slowJob.after (slowTurns.take 1)).world.rest "run" =
      some (Span.hour + 9000000) := by decide +kernel
  refine ⟨fun n => (checkpoint_never_back hsound hturns (Nat.le_refl n)).1, hfirst,
    by decide +kernel, ?_⟩
  exact (checkpoint_never_back hsound hturns (show 1 ≤ 3 by decide)).2 _ hfirst

end Job

end FaultDesk
