import FaultDesk.Proofs.Matching.FailingRecords
import FaultDesk.Proofs.Selection.Replay
import FaultDesk.Proofs.Timer.Undisturbed

/-!
Where the records of timers come from. A record is made when a rule that waits sees its condition true
at a sample. It counts from the time of that sample and stays as it is until it is deleted, whatever
rules are asked in whatever order and however accesses to the records fail.
-/

namespace FaultDesk

namespace Timers

variable {t : Timers} {uses : List TimerUse} {use : TimerUse} {key : TimerKey} {x : Stamp} {n : Nat}

/-! ## One use -/

/-- What a use can do to a record: nothing, delete it, or make it where there is none. -/
theorem find?_applied (t : Timers) (use : TimerUse) (key : TimerKey) :
    (use.applied t).find? key = t.find? key ∨
      use = .dropped key ∧ (use.applied t).find? key = none ∨
      ∃ d since at_ answer, use = .asked key d since at_ answer ∧ t.find? key = none ∧
        (use.applied t).find? key = some (t.kept (.utc since)) := by
  by_cases hk : key = use.key
  · subst hk
    cases use with
    | dropped key =>
      rcases t.find?_clear key with ⟨h, -⟩ | h
      · exact Or.inl h
      · exact Or.inr (Or.inl ⟨rfl, h⟩)
    | asked key d since at_ answer =>
      rcases t.find?_sustained key d (.utc at_) (some (.utc since)) with h | ⟨hnone, i, hi, hmade⟩
      · exact Or.inl h
      · obtain rfl := Stamp.eq_of_instant?_utc hi
        exact Or.inr (Or.inr ⟨d, i, at_, answer, rfl, hnone, hmade⟩)
  · exact Or.inl ((use.applied_moves t).find?_other hk)

/-! ## One use after another -/

/-- The timers when so many of the uses have been made. -/
def moment (t : Timers) (uses : List TimerUse) (n : Nat) : Timers := t.after (uses.take n)

theorem moment_succ (t : Timers) (uses : List TimerUse) (n : Nat) :
    t.moment uses (n + 1) = (t.moment uses n).after uses[n]?.toList := by
  unfold moment
  rw [List.take_add_one, after_append]

theorem moment_succ_of_getElem? (h : uses[n]? = some use) :
    t.moment uses (n + 1) = use.applied (t.moment uses n) := by
  rw [moment_succ, h]
  rfl

theorem moment_durable (t : Timers) (uses : List TimerUse) (n : Nat) :
    (t.moment uses n).durable = t.durable := t.after_durable _

/-- From one moment to the next a record stays as it is or is deleted. -/
theorem find?_moment_succ (h : (t.moment uses n).find? key = some x) :
    (t.moment uses (n + 1)).find? key = some x ∨
      uses[n]? = some (.dropped key) ∧ (t.moment uses (n + 1)).find? key = none := by
  cases huse : uses[n]? with
  | none =>
    rw [moment_succ, huse]
    exact Or.inl h
  | some use =>
    rw [moment_succ_of_getElem? huse]
    rcases (t.moment uses n).find?_applied use key with hsame | ⟨rfl, hgone⟩ | ⟨_, _, _, _, _, hnone, _⟩
    · exact Or.inl (hsame.trans h)
    · exact Or.inr ⟨rfl, hgone⟩
    · rw [hnone] at h
      cases h

/-- The record that a key has at a moment was made by the use at a place, with the time from which a
question counted, where there was none before, and has stood unchanged since. -/
structure MadeAt (t : Timers) (uses : List TimerUse) (key : TimerKey) (x : Stamp) (n m : Nat) :
    Prop where
  before : m < n
  asked : ∃ d since at_ answer, uses[m]? = some (.asked key d since at_ answer) ∧
    x = t.kept (.utc since)
  free : (t.moment uses m).find? key = none
  stood : ∀ k, m < k → k ≤ n → (t.moment uses k).find? key = some x

theorem MadeAt.succ {m : Nat} (h : t.MadeAt uses key x n m)
    (hx : (t.moment uses (n + 1)).find? key = some x) : t.MadeAt uses key x (n + 1) m := by
  refine ⟨Nat.lt_succ_of_lt h.before, h.asked, h.free, ?_⟩
  intro k hk hle
  rcases Nat.lt_or_eq_of_le hle with hlt | rfl
  · exact h.stood k hk (Nat.le_of_lt_succ hlt)
  · exact hx

theorem exists_madeAt (hempty : t.find? key = none) (h : (t.moment uses n).find? key = some x) :
    ∃ m, t.MadeAt uses key x n m := by
  induction n with
  | zero =>
    change t.find? key = some x at h
    rw [hempty] at h
    cases h
  | succ n ih =>
    have hbefore (hsame : (t.moment uses n).find? key = some x) :
        ∃ m, t.MadeAt uses key x (n + 1) m := by
      obtain ⟨m, hm⟩ := ih hsame
      exact ⟨m, hm.succ h⟩
    cases huse : uses[n]? with
    | none =>
      refine hbefore ?_
      rwa [moment_succ, huse] at h
    | some use =>
      have happlied := (t.moment uses n).find?_applied use key
      rw [← moment_succ_of_getElem? huse, h] at happlied
      rcases happlied with hsame | ⟨-, hgone⟩ | ⟨d, since, at_, answer, rfl, hfree, hmade⟩
      · exact hbefore hsame.symm
      · cases hgone
      · -- the last use has made it
        rw [kept_congr (t.moment_durable uses n)] at hmade
        refine ⟨n, Nat.lt_succ_self n, ⟨d, since, at_, answer, huse, Option.some.inj hmade⟩, hfree, ?_⟩
        intro k hk hle
        obtain rfl : k = n + 1 := Nat.le_antisymm hle hk
        exact h

end Timers

/-! ## What is asked -/

namespace Dialogue

variable {α β : Type} {on : TimerKey → Instant → Prop}

/-- Each question is about a key and counts from a time that belong together. -/
def Asking (on : TimerKey → Instant → Prop) : Dialogue α → Prop
  | ended _ => True
  | drop _ rest => rest.Asking on
  | ask key _ since _ rest => on key since ∧ ∀ answer, (rest answer).Asking on

theorem Asking.bind {d : Dialogue α} {f : α → Dialogue β} (hd : d.Asking on)
    (hf : ∀ a, (f a).Asking on) : (d.bind f).Asking on := by
  induction d with
  | ended a => exact hf a
  | drop key rest ih => exact ih hd
  | ask key d since at_ rest ih => exact ⟨hd.1, fun answer => ih answer (hd.2 answer)⟩

theorem Asking.of_mem_uses {d : Dialogue α} (hd : d.Asking on) {t : Timers} {key : TimerKey}
    {duration : Option Duration} {since at_ : Instant} {answer : Except Failure Bool}
    (h : .asked key duration since at_ answer ∈ d.uses t) : on key since := by
  induction d generalizing t with
  | ended => exact absurd h List.not_mem_nil
  | drop key rest ih =>
    rcases List.mem_cons.mp h with he | h
    · cases he
    · exact ih hd h
  | ask key d since at_ rest ih =>
    rcases List.mem_cons.mp h with he | h
    · cases he
      exact hd.1
    · exact ih _ (hd.2 _) h

end Dialogue

/-! ## The rules that start timers -/

namespace AnyRule

def looksAt : AnyRule → Sample → Bool
  | simple r, s => r.watches s
  | rate r, s => r.watches s
  | master r, s => r.enabled && r.concerns s

/-- Master rules have an equality of their own. -/
def holdsFor : AnyRule → Datum → Except Failure Bool
  | simple r, v => r.holdsFor v
  | rate r, v => r.holdsFor v
  | master r, v => r.holdsAt v

/-- A rule that waits looks at a sample at which its condition is true; the timer of the rule at the
unit of the sample is that of the key. -/
structure Starts (r : AnyRule) (s : Sample) (key : TimerKey) : Prop where
  enabled : r.base.enabled = true
  waits : r.base.gated = true
  looks : r.looksAt s = true
  holds : r.holdsFor s.value = .ok true
  own : r.base.timerKey s.unit = .ok key

end AnyRule

variable {on : TimerKey → Instant → Prop} {s : Sample} {related : List Sample}

theorem Rule.enabled_of_watches {r : Rule} (h : r.watches s = true) : r.enabled = true := by
  unfold Rule.watches at h
  simp only [Bool.and_eq_true] at h
  exact h.1.1

theorem Rule.dialogue_asking {r : Rule} (hw : r.watches s = true)
    (hon : ∀ key, (AnyRule.simple r).Starts s key → on key s.time) :
    (r.dialogue s related).Asking on := by
  unfold Rule.dialogue
  split
  next => trivial
  next => trivial
  next =>
    split
    next => trivial
    next holds hholds =>
      split
      next hg =>
        split
        next => trivial
        next key hk =>
          split
          next hb =>
            subst hb
            exact ⟨hon key ⟨r.enabled_of_watches hw, hg, hw, hholds, hk⟩, fun _ => trivial⟩
          next => trivial
      next => trivial

theorem matchDialogue_asking (n : Nat) {rules : List Rule}
    (hon : ∀ r ∈ rules, ∀ key, (AnyRule.simple r).Starts s key → on key s.time) :
    (matchDialogue s related n rules).Asking on := by
  induction rules generalizing n with
  | nil => trivial
  | cons r rest ih =>
    have hrest := fun n => ih n fun q hq => hon q (List.mem_cons_of_mem r hq)
    unfold matchDialogue
    split
    next hw =>
      apply (r.dialogue_asking hw (hon r List.mem_cons_self)).bind
      intro b
      split
      next => trivial
      next => exact hrest (n + 1)
    next => exact hrest (n + 1)

theorem RateRule.rateDialogue_asking {r : RateRule} (hw : r.watches s = true)
    (hon : ∀ key, (AnyRule.rate r).Starts s key → on key s.time) (h : History) (now : Instant) :
    (r.rateDialogue s related h now).Asking on := by
  have hgate : (r.gateDialogue s).Asking on := by
    unfold RateRule.gateDialogue
    split
    next hg =>
      split
      next => trivial
      next key hk =>
        split
        next => trivial
        next => trivial
        next hholds =>
          exact ⟨hon key ⟨Rule.enabled_of_watches hw, hg, hw, hholds, hk⟩, fun _ => trivial⟩
    next => trivial
  unfold RateRule.rateDialogue
  split
  next => trivial
  next => trivial
  next =>
    apply hgate.bind
    intro gate
    split <;> trivial

theorem firstRateDialogue_asking {rules : List RateRule} (hw : ∀ r ∈ rules, r.watches s = true)
    (hon : ∀ r ∈ rules, ∀ key, (AnyRule.rate r).Starts s key → on key s.time) (h : History)
    (now : Instant) : (firstRateDialogue s related h now rules).Asking on := by
  induction rules with
  | nil => trivial
  | cons r rest ih =>
    have hrest := ih (fun q hq => hw q (List.mem_cons_of_mem r hq))
      fun q hq => hon q (List.mem_cons_of_mem r hq)
    apply (RateRule.rateDialogue_asking (hw r List.mem_cons_self)
      (hon r List.mem_cons_self) h now).bind
    intro found
    split
    next => trivial
    next => exact hrest

/-- The run of a master rule starts with a sample at which its condition is true. -/
theorem MasterRule.first_starts {r : MasterRule} {unit : String} {samples : List Sample}
    {run : ActiveRun} {key : TimerKey} (hunit : ∀ s ∈ samples, s.unit = unit)
    (he : r.enabled = true) (hg : r.gated = true) (hk : r.timerKey unit = .ok key)
    (hrun : ActiveRun.find r samples = .ok (some run)) :
    run.first ∈ samples ∧ (AnyRule.master r).Starts run.first key := by
  obtain ⟨hfirst, -, -⟩ := ActiveRun.find_some hrun
  have htrailing := List.mem_of_head? hfirst
  obtain ⟨hmem, hconcerns⟩ := MasterRule.mem_trailing htrailing
  have htrue : r.trueAt run.first = true := List.mem_rtakeWhile_imp htrailing
  refine ⟨hmem, he, hg, ?_, of_decide_eq_true htrue, ?_⟩
  · exact Bool.and_eq_true_iff.mpr ⟨he, hconcerns⟩
  · rw [hunit _ hmem]
    exact hk

theorem MasterRule.masterDialogue_asking {r : MasterRule} {unit : String} {samples : List Sample}
    (hunit : ∀ s ∈ samples, s.unit = unit) (he : r.enabled = true)
    (hon : ∀ s ∈ samples, ∀ key, (AnyRule.master r).Starts s key → on key s.time) :
    (r.masterDialogue unit samples).Asking on := by
  unfold MasterRule.masterDialogue
  split
  next => trivial
  next key hk =>
    split
    next => trivial
    next => split <;> trivial
    next run hrun =>
      have hripe : (r.ripeDialogue key run).Asking on := by
        unfold MasterRule.ripeDialogue
        dsimp only
        split
        next => trivial
        next hasks =>
          -- the timer may be dropped first, but the question counts from the same sample
          have hg : r.gated = true := by simpa using fun hn => hasks (Or.inr hn)
          obtain ⟨hmem, hstarts⟩ := r.first_starts hunit he hg hk hrun
          have hfirst := hon run.first hmem key hstarts
          split <;> exact ⟨hfirst, fun _ => trivial⟩
      exact hripe.bind fun _ => trivial

theorem arbitrationDialogue_asking {unit : String} {samples : List Sample}
    (hunit : ∀ s ∈ samples, s.unit = unit) (collected : List MasterMatch) {rules : List MasterRule}
    (hon : ∀ r ∈ rules, ∀ s ∈ samples, ∀ key, (AnyRule.master r).Starts s key → on key s.time) :
    (arbitrationDialogue unit samples collected rules).Asking on := by
  induction rules generalizing collected with
  | nil => trivial
  | cons r rest ih =>
    have hrest := fun collected => ih collected fun q hq => hon q (List.mem_cons_of_mem r hq)
    unfold arbitrationDialogue
    split
    next he =>
      apply (r.masterDialogue_asking hunit he (hon r List.mem_cons_self)).bind
      intro found
      split
      next => trivial
      next => exact hrest collected
      next m =>
        split
        next => trivial
        next => exact hrest (collected ++ [m])
    next => exact hrest collected

/-! ## Calls -/

namespace Inquiry

def samples : Inquiry → List Sample
  | simple s _ => [s]
  | rate s _ _ _ => [s]
  | masters _ samples => samples

/-- The samples put to the master rules for a unit are samples of that unit. -/
def OfUnit : Inquiry → Prop
  | masters unit samples => ∀ s ∈ samples, s.unit = unit
  | _ => True

end Inquiry

namespace RuleBook

/-- The rules to which an inquiry is put. -/
def asked (b : RuleBook) : Inquiry → List AnyRule
  | .simple .. => b.simple.map .simple
  | .rate .. => b.rate.map .rate
  | .masters .. => b.masters.map .master

/-- The decision on an inquiry as a dialogue with the timers. -/
def dialogue (b : RuleBook) : Inquiry → Dialogue (Except Failure Decision)
  | .simple s related =>
    (matchDialogue s related 0 b.simple).bind fun found =>
      .ended (.ok (.simple (found.map (·.2))))
  | .rate s related past now =>
    if b.rate.any fun r => r.watches s then
      match History.ofSamples past with
      | .error e => .ended (.error e)
      | .ok h =>
        (firstRateDialogue s related h now (b.rate.filter fun r => r.watches s)).bind fun found =>
          .ended (.ok (.rate found))
    else .ended (.ok (.rate none))
  | .masters unit samples =>
    (arbitrationDialogue unit samples [] b.masters).bind fun found =>
      .ended (found.map .masters)

theorem hold_dialogue (b : RuleBook) (inquiry : Inquiry) (t : Timers) :
    (b.dialogue inquiry).hold t = b.ask inquiry t := by
  cases inquiry with
  | simple s related =>
    unfold dialogue ask firstMatch
    rw [Dialogue.hold_bind, hold_matchDialogue]
    rfl
  | rate s related past now =>
    unfold dialogue ask firstRate
    dsimp only
    split
    next =>
      cases History.ofSamples past with
      | error e => rfl
      | ok h =>
        dsimp only
        rw [Dialogue.hold_bind, hold_firstRateDialogue]
        rfl
    next => rfl
  | masters unit samples =>
    unfold dialogue ask arbitrate
    rw [Dialogue.hold_bind, hold_arbitrationDialogue]
    rfl

theorem dialogue_asking {on : TimerKey → Instant → Prop} (b : RuleBook) {inquiry : Inquiry}
    (hunit : inquiry.OfUnit)
    (hon : ∀ r ∈ b.asked inquiry, ∀ s ∈ inquiry.samples, ∀ key, r.Starts s key → on key s.time) :
    (b.dialogue inquiry).Asking on := by
  cases inquiry with
  | simple s related =>
    refine (matchDialogue_asking 0 ?_).bind fun _ => trivial
    intro r hr
    exact hon (.simple r) (List.mem_map_of_mem hr) s List.mem_cons_self
  | rate s related past now =>
    unfold dialogue
    dsimp only
    split
    next =>
      split
      next => trivial
      next h _ =>
        refine (firstRateDialogue_asking ?_ ?_ h now).bind fun _ => trivial
        · exact fun r hr => (List.mem_filter.mp hr).2
        · intro r hr
          exact hon (.rate r) (List.mem_map_of_mem (List.mem_filter.mp hr).1) s List.mem_cons_self
    next => trivial
  | masters unit samples =>
    refine (arbitrationDialogue_asking hunit [] ?_).bind fun _ => trivial
    intro r hr
    exact hon (.master r) (List.mem_map_of_mem hr)

end RuleBook

/-- A call of rules. -/
structure RuleCall where
  book : RuleBook
  inquiry : Inquiry

namespace RuleCall

variable {calls : List RuleCall} {c : RuleCall} {t : Timers} {key : TimerKey}

/-- The timers after one call after another. -/
def run (calls : List RuleCall) (t : Timers) : Timers :=
  calls.foldl (fun t c => (c.book.ask c.inquiry t).2) t

/-- What the calls do to the timers, each use beside the call that makes it. -/
def uses : List RuleCall → Timers → List (RuleCall × TimerUse)
  | [], _ => []
  | c :: rest, t =>
    ((c.book.dialogue c.inquiry).uses t).map (c, ·) ++ uses rest (c.book.ask c.inquiry t).2

theorem run_eq (calls : List RuleCall) (t : Timers) :
    run calls t = t.after ((uses calls t).map (·.2)) := by
  induction calls generalizing t with
  | nil => rfl
  | cons c rest ih =>
    have hask : (c.book.ask c.inquiry t).2 = t.after ((c.book.dialogue c.inquiry).uses t) := by
      rw [← Dialogue.hold_snd, RuleBook.hold_dialogue]
    have hown : (((c.book.dialogue c.inquiry).uses t).map (c, ·)).map (·.2) =
        (c.book.dialogue c.inquiry).uses t := by
      rw [List.map_map]
      exact List.map_id _
    unfold uses
    rw [List.map_append, Timers.after_append, hown, ← hask]
    exact ih _

/-- A question to the timers comes from a rule of the call at a sample of the call. -/
theorem starts_of_asked (hunits : ∀ c ∈ calls, c.inquiry.OfUnit) {d : Option Duration}
    {since at_ : Instant} {answer : Except Failure Bool}
    (h : (c, .asked key d since at_ answer) ∈ uses calls t) :
    c ∈ calls ∧ ∃ r ∈ c.book.asked c.inquiry, ∃ s ∈ c.inquiry.samples,
      r.Starts s key ∧ s.time = since := by
  induction calls generalizing t with
  | nil => exact absurd h List.not_mem_nil
  | cons first rest ih =>
    unfold uses at h
    rcases List.mem_append.mp h with h | h
    · obtain ⟨use, huse, hpair⟩ := List.mem_map.mp h
      obtain ⟨rfl, rfl⟩ := Prod.mk.inj hpair
      refine ⟨List.mem_cons_self, ?_⟩
      have hasking : (first.book.dialogue first.inquiry).Asking fun key since =>
          ∃ r ∈ first.book.asked first.inquiry, ∃ s ∈ first.inquiry.samples,
            r.Starts s key ∧ s.time = since := by
        apply first.book.dialogue_asking (hunits first List.mem_cons_self)
        exact fun r hr s hs key hstarts => ⟨r, hr, s, hs, hstarts, rfl⟩
      exact hasking.of_mem_uses huse
    · obtain ⟨hc, hfrom⟩ := ih (fun c hc => hunits c (List.mem_cons_of_mem first hc)) h
      exact ⟨List.mem_cons_of_mem first hc, hfrom⟩

/-- A run of calls makes its uses of the timers one after another. At every moment of it each record
was made at an earlier moment, when there was none of its key, by a rule that waits and at a sample
at which its condition was true; it holds the time of that sample and has stood unchanged since. It
stays as it is with the next use, unless that deletes it. Accesses may fail as they like. -/
theorem records_start_at_samples (hempty : t.records = [])
    (hunits : ∀ c ∈ calls, c.inquiry.OfUnit) :
    let trail := uses calls t
    let moment := t.moment (trail.map (·.2))
    run calls t = moment trail.length ∧
      ∀ n key x, (moment n).find? key = some x →
        (∃ m c use, m < n ∧ trail[m]? = some (c, use) ∧ c ∈ calls ∧
          (∃ r ∈ c.book.asked c.inquiry, ∃ s ∈ c.inquiry.samples,
            r.Starts s key ∧ x = t.kept (.utc s.time)) ∧
          (moment m).find? key = none ∧ ∀ k, m < k → k ≤ n → (moment k).find? key = some x) ∧
        ((moment (n + 1)).find? key = some x ∨
          (∃ c, trail[n]? = some (c, .dropped key)) ∧ (moment (n + 1)).find? key = none) := by
  intro trail moment
  -- the lemmas on uses do not know of the calls that make them
  have hplace {m : Nat} {use : TimerUse} (h : (trail.map (·.2))[m]? = some use) :
      ∃ c, trail[m]? = some (c, use) := by
    rw [List.getElem?_map] at h
    obtain ⟨⟨c, use'⟩, hc, rfl⟩ := Option.map_eq_some_iff.mp h
    exact ⟨c, hc⟩
  constructor
  · rw [run_eq]
    change _ = t.after ((trail.map (·.2)).take trail.length)
    rw [List.take_of_length_le (by simp)]
  · intro n key x hx
    have hnone : t.find? key = none := by simp [Timers.find?, hempty]
    constructor
    · obtain ⟨m, hm, ⟨d, since, at_, answer, huse, hkept⟩, hfree, hstood⟩ :=
        Timers.exists_madeAt hnone hx
      obtain ⟨c, hc⟩ := hplace huse
      obtain ⟨hcall, r, hr, s, hs, hstarts, rfl⟩ :=
        starts_of_asked hunits (List.mem_of_getElem? hc)
      exact ⟨m, c, _, hm, hc, hcall, ⟨r, hr, s, hs, hstarts, hkept⟩, hfree, hstood⟩
    · rcases Timers.find?_moment_succ hx with hstays | ⟨hdrop, hgone⟩
      · exact Or.inl hstays
      · exact Or.inr ⟨hplace hdrop, hgone⟩

/-- A unit that speaks and then falls silent. -/
def falling : List Sample := [.reading "Tag8" 1 5, .reading "Tag8" 0 20, .reading "Tag8" 0 30]

theorem sorted_falling : Sample.sorted falling = falling := Sample.sorted_of_ordered (by decide)

/-- The record of a first reading cannot be made, and that of a second one is. The silence of the
unit counts from the first sample of it. -/
theorem reading_and_silence_recorded :
    let t := (Timers.empty true).failing fun n _ => n == 1
    let seven (minutes : Nat) : RuleCall :=
      ⟨RuleBook.limits, .simple (.reading "Tag1" 7 minutes) []⟩
    let calls := [seven 0, seven 10, ⟨RuleBook.limits, .masters "101" falling⟩]
    (run calls t).find? ⟨"101", "Tag1", "5"⟩ = some (.naive 600000000) ∧
      (run calls t).find? ⟨"101", "Tag8", "0"⟩ = some (.naive 1200000000) ∧
      ∀ key x, (run calls t).find? key = some x →
        ∃ c ∈ calls, ∃ r ∈ c.book.asked c.inquiry, ∃ s ∈ c.inquiry.samples,
          r.Starts s key ∧ x = t.kept (.utc s.time) := by
  intro t seven calls
  have hunits : ∀ c ∈ calls, c.inquiry.OfUnit := by
    intro c hc
    simp only [calls, seven, falling, List.mem_cons, List.not_mem_nil, or_false] at hc
    rcases hc with rfl | rfl | rfl
    · trivial
    · trivial
    · intro s hs
      simp only [List.mem_cons, List.not_mem_nil, or_false] at hs
      rcases hs with rfl | rfl | rfl <;> rfl
  obtain ⟨hrun, hmoments⟩ := records_start_at_samples (t := t) rfl hunits
  have hrecords : (run calls t).find? ⟨"101", "Tag1", "5"⟩ = some (.naive 600000000) ∧
      (run calls t).find? ⟨"101", "Tag8", "0"⟩ = some (.naive 1200000000) := by
    simp only [calls, run, List.foldl, RuleBook.ask, arbitrate, RuleBook.limits, arbitrateFrom,
      MasterRule.verdict, ActiveRun.find, sorted_falling]
    decide +kernel
  refine ⟨hrecords.1, hrecords.2, ?_⟩
  intro key x hx
  rw [hrun] at hx
  obtain ⟨⟨m, c, use, -, -, hc, ⟨r, hr, s, hs, hstarts, hkept⟩, -, -⟩, -⟩ := hmoments _ key x hx
  exact ⟨c, hc, r, hr, s, hs, hstarts, hkept⟩

end RuleCall

end FaultDesk
