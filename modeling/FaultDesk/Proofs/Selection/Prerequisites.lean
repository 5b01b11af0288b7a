import FaultDesk.Proofs.Selection.Grounds

/-!
Prerequisites in a selection. A simple rule or a rate rule that has one wins only at a sample at which
it is satisfied. A master rule is never asked for its prerequisite: without it, the same is won and the
timers are left the same.
-/

namespace FaultDesk

/-! ## Where the reading of a prerequisite comes from -/

/-- The values that a prerequisite may look at for a sample of a block: that of the sample's row, that
of the sample, or that of a sample at or before it of a fitting kind. -/
inductive Prerequisite.Resolves (p : Prerequisite) (samples : List Sample) (s : Sample) : Datum → Prop where
  | row {v : Datum} (found : (s.row.getD []).value? p.tag = some v) : Resolves p samples s v
  | own (tag : p.tag = s.tag) : Resolves p samples s s.value
  | related {q : Sample} {table : String} (mem : q ∈ samples) (before : q.time ≤ s.time)
      (tag : q.tag = p.tag) (bound : p.table = some table) (named : table.isEmpty = false)
      (fits : q.kind.fits p.table = true) : Resolves p samples s q.value

/-- The samples related to one are others of the block, none of them later. -/
theorem related_of_withRelated {seen samples related : List Sample} {s q : Sample}
    (h : (s, related) ∈ withRelated seen samples) (hq : q ∈ related) :
    (q ∈ seen ∨ q ∈ samples) ∧ q.time ≤ s.time := by
  induction samples generalizing seen with
  | nil => cases h
  | cons x rest ih =>
    rcases List.mem_cons.mp h with h | h
    · obtain ⟨rfl, rfl⟩ := Prod.mk.inj h
      rcases List.mem_append.mp hq with hq | hq
      · obtain ⟨hmem, hle⟩ := List.mem_filter.mp (List.mem_reverse.mp hq)
        exact ⟨Or.inr (List.mem_cons_of_mem _ hmem), of_decide_eq_true hle⟩
      · obtain ⟨hmem, hle⟩ := List.mem_filter.mp hq
        exact ⟨Or.inl hmem, of_decide_eq_true hle⟩
    · obtain ⟨hmem, hle⟩ := ih h
      refine ⟨?_, hle⟩
      rcases hmem with hmem | hmem
      · rcases List.mem_cons.mp hmem with rfl | hmem
        · exact Or.inr List.mem_cons_self
        · exact Or.inl hmem
      · exact Or.inr (List.mem_cons_of_mem _ hmem)

theorem Prerequisite.resolves_of_reading {p : Prerequisite} {samples related : List Sample} {s : Sample}
    {v : Datum} (hrelated : ∀ q ∈ related, q ∈ samples ∧ q.time ≤ s.time)
    (h : p.reading? s related = some v) : p.Resolves samples s v := by
  unfold reading? at h
  split at h
  next v' hrow =>
    obtain rfl := Option.some.inj h
    exact .row hrow
  next =>
    split at h
    next htag =>
      obtain rfl := Option.some.inj h
      exact .own htag
    next =>
      split at h
      next => cases h
      next table htable =>
        split at h
        next => cases h
        next hnamed =>
          obtain ⟨q, hq, rfl⟩ := Option.map_eq_some_iff.mp h
          have hfits := List.find?_some hq
          simp only [Bool.and_eq_true, beq_iff_eq] at hfits
          obtain ⟨hmem, hle⟩ := hrelated q (List.mem_of_find?_eq_some hq)
          exact .related hmem hle hfits.1 htable (eq_false_of_ne_true hnamed) hfits.2

theorem Prerequisite.reading_of_satisfied {p : Prerequisite} {s : Sample} {related : List Sample}
    (h : p.satisfied s related = .ok true) :
    ∃ v, p.reading? s related = some v ∧ p.condition.eval v p.value.datum = .ok true := by
  unfold satisfied at h
  split at h
  next => cases h
  next v hv =>
    split at h
    next =>
      cases hw : v.written with
      | error e =>
        rw [hw] at h
        cases h
      | ok text =>
        rw [hw] at h
        cases h
    next => exact ⟨v, hv, h⟩

/-- A rule whose prerequisite holds has a reading that satisfies it. -/
theorem Rule.resolves_of_prerequisiteHolds {r : Rule} {p : Prerequisite} {samples related : List Sample}
    {s : Sample} (hp : r.prerequisite = some p)
    (hrelated : ∀ q ∈ related, q ∈ samples ∧ q.time ≤ s.time)
    (h : r.prerequisiteHolds s related = .ok true) :
    ∃ v, p.Resolves samples s v ∧ p.condition.eval v p.value.datum = .ok true := by
  simp only [prerequisiteHolds, hp] at h
  obtain ⟨v, hv, heval⟩ := Prerequisite.reading_of_satisfied h
  exact ⟨v, Prerequisite.resolves_of_reading hrelated hv, heval⟩

/-! ## Rules without their prerequisites -/

/-- A master rule without its prerequisite. -/
def MasterRule.bare (r : MasterRule) : MasterRule := { r with prerequisite := none }

/-- A rule, without its prerequisite if it is a master rule. -/
def AnyRule.bare : AnyRule → AnyRule
  | master r => master r.bare
  | r => r

def Candidate.bare (c : Candidate) : Candidate := { c with rule := c.rule.bare }

def MasterMatch.bare (m : MasterMatch) : MasterMatch := { m with rule := m.rule.bare }

def Arbitration.bare (a : Arbitration) : Arbitration :=
  ⟨a.blocking.map MasterMatch.bare, a.collected.map MasterMatch.bare⟩

def SelectionEvent.bare : SelectionEvent → SelectionEvent
  | winner c => winner c.bare
  | e => e

/-- A selector whose master rules have no prerequisites. -/
def Selector.bare (sel : Selector) : Selector := { sel with masters := sel.masters.map MasterRule.bare }

theorem ActiveRun.follow_bare (r : MasterRule) (run : Option (Sample × Sample)) (interrupted : Bool)
    (samples : List Sample) : follow r.bare run interrupted samples = follow r run interrupted samples := by
  induction samples generalizing run interrupted with
  | nil => rfl
  | cons s rest ih =>
    have hconcerns : r.bare.concerns s = r.concerns s := rfl
    have hholds : r.bare.holdsAt s.value = r.holdsAt s.value := rfl
    simp only [follow, hconcerns, hholds, ih]

/-- The verdict of a master rule does not depend on its prerequisite. -/
theorem MasterRule.verdict_bare (r : MasterRule) (unit : String) (samples : List Sample) (t : Timers) :
    r.bare.verdict unit samples t =
      ((r.verdict unit samples t).1.map (·.map MasterMatch.bare), (r.verdict unit samples t).2) := by
  have hkey : r.bare.timerKey unit = r.timerKey unit := rfl
  have hfind : ActiveRun.find r.bare samples = ActiveRun.find r samples :=
    ActiveRun.follow_bare r none false (Sample.sorted samples)
  unfold verdict
  rw [hkey, hfind]
  split
  next => rfl
  next key hk =>
    split
    next => rfl
    next => rfl
    next run hrun =>
      have hripe : r.bare.ripe key run t = r.ripe key run t := rfl
      rw [hripe]
      split <;> rfl

theorem arbitrateFrom_bare (unit : String) (samples : List Sample) (collected : List MasterMatch)
    (rules : List MasterRule) (t : Timers) :
    arbitrateFrom unit samples (collected.map MasterMatch.bare) (rules.map MasterRule.bare) t =
      ((arbitrateFrom unit samples collected rules t).1.map Arbitration.bare,
        (arbitrateFrom unit samples collected rules t).2) := by
  induction rules generalizing collected t with
  | nil => rfl
  | cons r rest ih =>
    have hon : r.bare.enabled = r.enabled := rfl
    have hblocks : r.bare.isBlocking = r.isBlocking := rfl
    simp only [List.map_cons, arbitrateFrom, hon, hblocks, MasterRule.verdict_bare]
    generalize r.verdict unit samples t = found
    obtain ⟨result, u⟩ := found
    split
    next =>
      cases result with
      | error e => rfl
      | ok found =>
        cases found with
        | none => exact ih collected u
        | some m =>
          have hmore := ih (collected ++ [m]) u
          rw [List.map_append] at hmore
          simp only [Except.map, Option.map_some]
          split
          next => rfl
          next => exact hmore
    next => exact ih collected t

/-! ## Selections without prerequisites of master rules -/

theorem latestBy_map {α : Type} {time : α → Instant} {f : α → α} (hf : ∀ x, time (f x) = time x)
    (items : List α) : latestBy time (items.map f) = (latestBy time items).map f := by
  induction items using List.reverseRecOn with
  | nil => rfl
  | append_singleton items x ih =>
    rw [List.map_append, List.map_singleton, latestBy_concat, latestBy_concat, ih]
    cases latestBy time items with
    | none => rfl
    | some best =>
      simp only [Option.map_some, hf]
      split <;> rfl

/-- What comes of a block, with the prerequisites of master rules taken off its winners. -/
def Flush.bare (f : Flush) : Flush := { f with winners := f.winners.map (·.map Candidate.bare) }

theorem Flush.bare_eq_self {f : Flush} (h : ∀ cs, f.winners = .ok cs → ∀ c ∈ cs, c.bare = c) :
    f.bare = f := by
  obtain ⟨winners, asked, t⟩ := f
  cases winners with
  | error e => rfl
  | ok cs =>
    have hmap : cs.map Candidate.bare = cs := by
      conv_rhs => rw [← List.map_id cs]
      exact List.map_congr_left (h cs rfl)
    simp only [bare, Except.map, hmap]

namespace Selector

variable {sel : Selector} {unit : String} {samples : List Sample} {t : Timers}

/-- What an ordinary rule hits has no master rule. -/
theorem Hit.bare {pairs : List (Sample × List Sample)} {c : Candidate} (h : sel.Hit unit pairs c) :
    c.bare = c := by
  cases h <;> rfl

theorem search_bare (pairs : List (Sample × List Sample)) (st : Search) :
    sel.bare.search unit pairs st = sel.search unit pairs st := by
  induction pairs generalizing st with
  | nil => rfl
  | cons p rest ih =>
    obtain ⟨s, related⟩ := p
    have hasks : sel.bare.asksHistory s = sel.asksHistory s := rfl
    have hpast : sel.bare.historyOf unit = sel.historyOf unit := rfl
    have hsimple (st : Search) : sel.bare.trySimple s related st = sel.trySimple s related st := rfl
    have hrate (past : History) (st : Search) :
        sel.bare.tryRate s related past st = sel.tryRate s related past st := rfl
    simp only [search, hasks, hpast, hsimple, hrate, ih]

theorem flushOrdinary_bare :
    sel.bare.flushOrdinary unit samples t = (sel.flushOrdinary unit samples t).bare := by
  have hsame : sel.bare.flushOrdinary unit samples t = sel.flushOrdinary unit samples t := by
    unfold flushOrdinary
    rw [search_bare]
    rfl
  rw [hsame, Flush.bare_eq_self]
  intro cs hcs c hc
  rw [winners_flushOrdinary hcs] at hc
  rcases hit_search (fun _ hp => hp) (by simp) c (WinnerPolicy.mem_of_winners hc) with hc | hc
  · cases hc
  · exact hc.bare

theorem flush_bare : sel.bare.flush unit samples t = (sel.flush unit samples t).bare := by
  have harbitrate (buffer : List Sample) : arbitrate unit buffer sel.bare.masters t =
      ((arbitrate unit buffer sel.masters t).1.map Arbitration.bare,
        (arbitrate unit buffer sel.masters t).2) :=
    arbitrateFrom_bare unit buffer [] sel.masters t
  unfold flush
  split
  next => rfl
  next =>
    dsimp only
    rw [harbitrate]
    generalize arbitrate unit (Sample.sorted samples) sel.masters t = out
    obtain ⟨result, u⟩ := out
    cases result with
    | error e => rfl
    | ok a =>
      obtain ⟨blocking, collected⟩ := a
      cases blocking with
      | some m => rfl
      | none =>
        have hlatest := @latestBy_map MasterMatch (·.sample.time) MasterMatch.bare (fun _ => rfl)
          collected
        simp only [Except.map, Arbitration.bare, Option.map_none, hlatest]
        cases latestBy (·.sample.time) collected with
        | some m => rfl
        | none => exact flushOrdinary_bare

theorem giveOut_bare (given : List (String × String)) (wanted : Option Nat) (cs : List Candidate) :
    giveOut given wanted (cs.map Candidate.bare) =
      ((giveOut given wanted cs).1.map Candidate.bare, (giveOut given wanted cs).2) := by
  induction cs generalizing given wanted with
  | nil => rfl
  | cons c rest ih =>
    have hkey : c.bare.key = c.key := by
      obtain ⟨unit, tag, value, time, rule, stats, kind⟩ := c
      rfl
    simp only [List.map_cons, giveOut, hkey, ih]
    split
    next => rfl
    next =>
      split
      next => rfl
      next => rfl

theorem selectFrom_bare (begun : Bool) (given : List (String × String)) (wanted : Option Nat)
    (bs : List Block) (t : Timers) :
    sel.bare.selectFrom begun given wanted bs t =
      ((sel.selectFrom begun given wanted bs t).1.map SelectionEvent.bare,
        (sel.selectFrom begun given wanted bs t).2) := by
  induction bs generalizing begun given wanted t with
  | nil => rfl
  | cons b rest ih =>
    have hreads : ((readsFor begun b rest.head?).map SelectionEvent.read).map SelectionEvent.bare =
        (readsFor begun b rest.head?).map SelectionEvent.read := by
      rw [List.map_map]
      rfl
    have hwon (cs : List Candidate) : (cs.map SelectionEvent.winner).map SelectionEvent.bare =
        (cs.map Candidate.bare).map SelectionEvent.winner := by
      rw [List.map_map, List.map_map]
      rfl
    simp only [selectFrom, flush_bare]
    generalize sel.flush b.unit b.samples t = f
    obtain ⟨winners, asked, u⟩ := f
    cases winners with
    | error e =>
      cases asked <;> simp [Flush.bare, Except.map, hreads, SelectionEvent.bare]
    | ok cs =>
      simp only [Flush.bare, Except.map, giveOut_bare]
      generalize giveOut given wanted cs = out
      obtain ⟨cs', given', wanted'⟩ := out
      dsimp only
      split
      next => cases asked <;> simp [hreads, hwon, SelectionEvent.bare]
      next => cases asked <;> simp [ih, hreads, hwon, SelectionEvent.bare]

/-- A winner of an ordinary rule with a prerequisite is won at a sample at which the prerequisite has a
reading that satisfies it. The prerequisites of master rules make no difference to a selection. -/
theorem select_prerequisites (sel : Selector) (wanted : Option Nat) (stream extra : List Sample)
    (t : Timers) :
    (∀ c p, .winner c ∈ (sel.select wanted stream extra t).1 → c.rule.base.prerequisite = some p →
      (∀ r, c.rule ≠ .master r) →
        ∃ b ∈ blocks stream extra, ∃ s ∈ b.samples, c = .ofSample s c.rule c.stats ∧
          ∃ v, p.Resolves b.samples s v ∧ p.condition.eval v p.value.datum = .ok true) ∧
    sel.bare.select wanted stream extra t =
      ((sel.select wanted stream extra t).1.map SelectionEvent.bare,
        (sel.select wanted stream extra t).2) := by
  refine ⟨?_, selectFrom_bare false [] wanted (blocks stream extra) t⟩
  intro c p hc hp hrule
  obtain ⟨b, hb, hgrounds⟩ := grounds_of_select hc
  refine ⟨b, hb, ?_⟩
  have hrelated {s : Sample} {related : List Sample}
      (hseen : (s, related) ∈ withRelated [] (Sample.sorted b.samples)) :
      ∀ q ∈ related, q ∈ b.samples ∧ q.time ≤ s.time := by
    intro q hq
    obtain ⟨hmem, hle⟩ := related_of_withRelated hseen hq
    exact ⟨Sample.mem_sorted.mp (hmem.resolve_left List.not_mem_nil), hle⟩
  cases hgrounds with
  | @master m _ => exact absurd rfl (hrule m.rule)
  | ordinary hit =>
    cases hit with
    | @simple s related r seen mem watches prerequisite holds =>
      exact ⟨s, Sample.mem_sorted.mp (mem_of_withRelated seen), rfl,
        Rule.resolves_of_prerequisiteHolds hp (hrelated seen) prerequisite⟩
    | @rate s related r past st seen mem watches prerequisite holds recalled share =>
      exact ⟨s, Sample.mem_sorted.mp (mem_of_withRelated seen), rfl,
        Rule.resolves_of_prerequisiteHolds hp (hrelated seen) prerequisite⟩

end Selector

/-- The unit is in service. -/
def inService : Prerequisite := ⟨"Tag6", .whole 1, .equals, none⟩

/-- A lamp that reads one while the unit is in service is a fault. -/
def servicedLamp : Rule := { Rule.reads "Tag1" 1 0 with prerequisite := some inService }

def serviced : Sample :=
  { Sample.reading "Tag1" 1 0 with row := some [("Tag1", .int 1), ("Tag6", .int 1)] }

theorem servicedLamp_wins_serviced :
    let sel : Selector := ⟨[], [servicedLamp], [], .single, none, 0⟩
    ∃ c v, .winner c ∈ (sel.select none [serviced] [] (.empty true)).1 ∧
      (∃ b ∈ blocks [serviced] [], ∃ s ∈ b.samples, inService.Resolves b.samples s v) ∧
      inService.condition.eval v inService.value.datum = .ok true := by
  intro sel
  have hwon : ((sel.select none [serviced] [] (.empty true)).1.filterMap
      SelectionEvent.winner?).map (·.rule) = [.simple servicedLamp] := by decide +kernel
  obtain ⟨c, hc, hrule⟩ := SelectionEvent.exists_winner hwon
  obtain ⟨b, hb, s, hs, -, v, hv, htrue⟩ :=
    (Selector.select_prerequisites sel none [serviced] [] (.empty true)).1 c inService hc
      (by rw [hrule]; rfl) (by simp [hrule])
  exact ⟨c, v, hc, ⟨b, hb, s, hs, hv⟩, htrue⟩

/-- A loss of power counts while the unit is in service. -/
def servicedPower : MasterRule := ⟨{ Rule.reads "Tag16" 0 0 with prerequisite := some inService }, 1⟩

/-- The unit is out of service. -/
def unserviced : Sample :=
  { Sample.reading "Tag16" 0 0 with row := some [("Tag16", .int 0), ("Tag6", .int 0)] }

/-- The master rule wins at a sample whose row says that its prerequisite is not satisfied, and there
is no other reading for it. -/
theorem servicedPower_wins_unserviced :
    let sel := Selector.ofConfig { Config.standard with masterRules := [servicedPower] } none 0
    ∃ c p, .winner c ∈ (sel.select none [unserviced] [] (.empty true)).1 ∧
      c.rule.base.prerequisite = some p ∧
        ∀ b ∈ blocks [unserviced] [], ∀ s ∈ b.samples, ∀ v, p.Resolves b.samples s v →
          p.condition.eval v p.value.datum = .ok false := by
  intro sel
  have hwon : ((sel.select none [unserviced] [] (.empty true)).1.filterMap
      SelectionEvent.winner?).map (·.rule) = [.master servicedPower] := by decide +kernel
  obtain ⟨c, hc, hrule⟩ := SelectionEvent.exists_winner hwon
  refine ⟨c, inService, hc, by rw [hrule]; rfl, ?_⟩
  intro b hb s hs v hv
  have hmem := mem_of_mem_samples [unserviced] [] hb hs
  simp only [List.mem_singleton, List.not_mem_nil, or_false] at hmem
  subst s
  cases hv with
  | row found =>
    obtain rfl : Datum.int 0 = v := Option.some.inj found
    decide +kernel
  | own tag => exact absurd tag (by decide)
  | related _ _ _ bound => cases bound

end FaultDesk
