import FaultDesk.Proofs.Selection.Completion
import FaultDesk.Proofs.Timer.LeftOut

/-!
Units side by side. What is won at a unit depends on the samples, past readings and timers of that
unit only: two selections that agree on these agree on its winners and on the timers left behind,
whatever other units there are and wherever their samples stand.
-/

namespace FaultDesk

open Timers

namespace Selector

/-- The same selector with other past readings. -/
def recalling (sel : Selector) (past : Option (String → List Sample)) : Selector :=
  { sel with history := past }

end Selector

/-! ## One block -/

/-- All rules wait on keys of the unit that is judged. -/
theorem parted_unit {α : Type} (base : α → Rule) (unit : String) (rules : List α) :
    Parted base unit (·.unit = unit) (fun _ => true) rules :=
  ⟨fun _ _ _ _ _ hk => (Rule.timerKey_fields hk).1, fun _ _ h => by cases h⟩

/-- Two searches that have hit the same so far. -/
structure Search.Alike (on : TimerKey → Prop) (st st' : Search) : Prop where
  hits : st'.hits = st.hits
  history : st'.history = st.history
  timers : Timers.Alike on st.timers st'.timers

namespace Selector

variable {sel : Selector} {past : Option (String → List Sample)} {unit : String}
  {samples : List Sample} {t u : Timers} {s : Sample} {related : List Sample} {st st' : Search}

theorem trySimple_alike (hs : s.unit = unit) (h : st.Alike (·.unit = unit) st') :
    (sel.trySimple s related st).Alike (·.unit = unit)
      ((sel.recalling past).trySimple s related st') := by
  obtain ⟨hfound, htimers⟩ := @matchFrom_leftOut (·.unit = unit) st.timers st'.timers s related
    (fun _ => true) sel.simple (by rw [hs]; exact parted_unit _ _ _) h.timers 0 0 fun _ _ _ => rfl
  rw [List.filter_true] at hfound htimers
  unfold trySimple firstMatch recalling
  dsimp only
  generalize matchFrom s related 0 sel.simple st.timers = x at hfound htimers ⊢
  generalize matchFrom s related 0 sel.simple st'.timers = y at hfound htimers ⊢
  obtain ⟨x, t⟩ := x
  obtain ⟨y, u⟩ := y
  cases x with
  | none =>
    obtain rfl : y = none := by simpa using hfound
    exact ⟨h.hits, h.history, htimers⟩
  | some x =>
    obtain ⟨p, r⟩ := x
    obtain ⟨⟨q, r'⟩, rfl, hr⟩ := Option.map_eq_some_iff.mp hfound
    obtain rfl : r' = r := hr
    exact ⟨by rw [h.hits], h.history, htimers⟩

theorem tryRate_alike (hs : s.unit = unit) (past' : History) (h : st.Alike (·.unit = unit) st') :
    (sel.tryRate s related past' st).Alike (·.unit = unit)
      ((sel.recalling past).tryRate s related past' st') := by
  obtain ⟨found, t, u, ht, hu, h'⟩ := (@firstRateIn_leftOut (·.unit = unit) st.timers st'.timers s
    related (fun _ => true) sel.rate past' sel.now (by rw [hs]; exact parted_unit _ _ _) h.timers
    fun _ _ _ _ => rfl).split
  rw [List.filter_true] at hu
  unfold tryRate recalling
  dsimp only
  rw [ht, hu]
  cases found with
  | none => exact ⟨h.hits, rfl, h'⟩
  | some c => exact ⟨by rw [h.hits], rfl, h'⟩

theorem search_alike (hpast : (sel.recalling past).historyOf unit = sel.historyOf unit)
    {pairs : List (Sample × List Sample)} (hpairs : ∀ p ∈ pairs, p.1.unit = unit)
    (h : st.Alike (·.unit = unit) st') :
    ((sel.recalling past).search unit pairs st').1 = (sel.search unit pairs st).1 ∧
      (sel.search unit pairs st).2.Alike (·.unit = unit)
        ((sel.recalling past).search unit pairs st').2 := by
  induction pairs generalizing st st' with
  | nil => exact ⟨rfl, h⟩
  | cons p rest ih =>
    obtain ⟨s, related⟩ := p
    have hs : s.unit = unit := hpairs _ List.mem_cons_self
    have hrest : ∀ p ∈ rest, p.1.unit = unit := fun p hp => hpairs p (List.mem_cons_of_mem _ hp)
    have hsimple := @trySimple_alike sel past unit s related st st' hs h
    have hasks : (sel.recalling past).asksHistory s = sel.asksHistory s := rfl
    simp only [search, hasks, hsimple.history, hpast]
    split
    next =>
      split
      next past' _ => exact ih hrest (tryRate_alike hs past' hsimple)
      next =>
        split
        next => exact ⟨rfl, hsimple⟩
        next past' _ => exact ih hrest (tryRate_alike hs past' hsimple)
    next => exact ih hrest hsimple

theorem flushOrdinary_alike (hpast : (sel.recalling past).historyOf unit = sel.historyOf unit)
    (hunit : ∀ s ∈ samples, s.unit = unit) (h : Timers.Alike (·.unit = unit) t u) :
    ((sel.recalling past).flushOrdinary unit samples u).winners =
        (sel.flushOrdinary unit samples t).winners ∧
      Timers.Alike (·.unit = unit) (sel.flushOrdinary unit samples t).timers
        ((sel.recalling past).flushOrdinary unit samples u).timers := by
  have hpairs : ∀ p ∈ withRelated [] samples, p.1.unit = unit :=
    fun p hp => hunit _ (mem_of_withRelated hp)
  obtain ⟨hfails, hleft⟩ :=
    @search_alike sel past unit ⟨t, none, []⟩ ⟨u, none, []⟩ hpast _ hpairs ⟨rfl, rfl, h⟩
  unfold flushOrdinary
  generalize sel.search unit (withRelated [] samples) ⟨t, none, []⟩ = x at hfails hleft ⊢
  generalize (sel.recalling past).search unit (withRelated [] samples) ⟨u, none, []⟩ = y
    at hfails hleft ⊢
  obtain ⟨x, st⟩ := x
  obtain ⟨y, st'⟩ := y
  obtain rfl : y = x := hfails
  cases y with
  | some e => exact ⟨rfl, hleft.timers⟩
  | none => exact ⟨congrArg (fun hits => Except.ok (sel.policy.winners hits)) hleft.hits,
      hleft.timers⟩

/-- A block of a unit wins the same where the past readings and the timers of the unit are the
same. -/
theorem flush_alike {cs : List Candidate}
    (hpast : (sel.recalling past).historyOf unit = sel.historyOf unit)
    (hunit : ∀ s ∈ samples, s.unit = unit) (h : Timers.Alike (·.unit = unit) t u)
    (hok : (sel.flush unit samples t).winners = .ok cs) :
    ((sel.recalling past).flush unit samples u).winners = .ok cs ∧
      Timers.Alike (·.unit = unit) (sel.flush unit samples t).timers
        ((sel.recalling past).flush unit samples u).timers := by
  by_cases hne : samples = []
  · subst samples
    exact ⟨hok, h⟩
  · cases ha : arbitrate unit (Sample.sorted samples) sel.masters t with
    | mk result t' =>
      cases result with
      | error e =>
        rw [flush_of_arbitrate_error hne (congrArg Prod.fst ha)] at hok
        cases hok
      | ok a =>
        obtain ⟨u', ha', h'⟩ := @arbitrateFrom_leftOut _ t u unit (fun _ => true) sel.masters _ []
          a t' (parted_unit _ _ _) h ha fun _ _ => rfl
        have hb : arbitrate unit (Sample.sorted samples) (sel.recalling past).masters u =
            (.ok a, u') := by
          simpa [arbitrate, recalling] using ha'
        have hsorted : ∀ s ∈ Sample.sorted samples, s.unit = unit :=
          fun s hs => hunit s (Sample.mem_sorted.mp hs)
        have hordinary := flushOrdinary_alike hpast hsorted h'
        have hempty : samples.isEmpty = false := by simpa using hne
        unfold flush at hok ⊢
        simp only [hempty, Bool.false_eq_true, ↓reduceIte] at hok ⊢
        rw [ha] at hok ⊢
        rw [hb]
        dsimp only at hok ⊢
        cases hblocking : a.blocking with
        | some m =>
          rw [hblocking] at hok
          exact ⟨hok, h'⟩
        | none =>
          rw [hblocking] at hok
          cases hlatest : latestBy (·.sample.time) a.collected with
          | some m =>
            rw [hlatest] at hok
            exact ⟨hok, h'⟩
          | none =>
            rw [hlatest] at hok
            exact ⟨hordinary.1.trans hok, hordinary.2⟩

theorem trySimple_moves (hs : s.unit = unit) :
    Moves (·.unit = unit) st.timers (sel.trySimple s related st).timers := by
  have hown : Moves (·.unit = unit) st.timers (firstMatch s related sel.simple st.timers).2 := by
    refine (firstMatch_moves s related sel.simple st.timers).mono ?_
    rintro key ⟨r, -, -, hk⟩
    exact (Rule.timerKey_fields hk).1.trans hs
  unfold trySimple
  split
  next h => simpa [h] using hown
  next h => simpa [h] using hown

theorem tryRate_moves (hs : s.unit = unit) (past : History) :
    Moves (·.unit = unit) st.timers (sel.tryRate s related past st).timers := by
  have hown : Moves (·.unit = unit) st.timers
      (firstRateIn s related past sel.now sel.rate st.timers).2 := by
    refine (rateFrom_moves (sel.rate.filter fun r => r.watches s) st.timers).mono ?_
    rintro key ⟨r, -, hk⟩
    exact (Rule.timerKey_fields hk).1.trans hs
  unfold tryRate
  split
  next h => simpa [h] using hown
  next h => simpa [h] using hown

theorem search_moves {pairs : List (Sample × List Sample)} (hpairs : ∀ p ∈ pairs, p.1.unit = unit) :
    Moves (·.unit = unit) st.timers (sel.search unit pairs st).2.timers := by
  induction pairs generalizing st with
  | nil => exact .refl _
  | cons p rest ih =>
    obtain ⟨s, related⟩ := p
    have hs : s.unit = unit := hpairs _ List.mem_cons_self
    have hrest : ∀ p ∈ rest, p.1.unit = unit := fun p hp => hpairs p (List.mem_cons_of_mem _ hp)
    have hsimple := @trySimple_moves sel unit s related st hs
    simp only [search]
    split
    next =>
      split
      next past' _ => exact (hsimple.trans (tryRate_moves hs past')).trans (ih hrest)
      next =>
        split
        next => exact hsimple
        next past' _ => exact (hsimple.trans (tryRate_moves hs past')).trans (ih hrest)
    next => exact hsimple.trans (ih hrest)

theorem flushOrdinary_moves (hunit : ∀ s ∈ samples, s.unit = unit) :
    Moves (·.unit = unit) t (sel.flushOrdinary unit samples t).timers := by
  have hsearch := @search_moves sel unit ⟨t, none, []⟩ (withRelated [] samples)
    fun p hp => hunit _ (mem_of_withRelated hp)
  unfold flushOrdinary
  split
  next h => simpa [h] using hsearch
  next h => simpa [h] using hsearch

/-- The judgement of a block asks and changes timers of its unit only. -/
theorem flush_moves (hunit : ∀ s ∈ samples, s.unit = unit) :
    Moves (·.unit = unit) t (sel.flush unit samples t).timers := by
  have hmasters : Moves (·.unit = unit) t
      (arbitrateFrom unit (Sample.sorted samples) [] sel.masters t).2 := by
    refine (arbitrateFrom_moves unit (Sample.sorted samples) [] sel.masters t).mono ?_
    rintro key ⟨r, -, hk⟩
    exact (Rule.timerKey_fields hk).1
  have hsorted : ∀ s ∈ Sample.sorted samples, s.unit = unit :=
    fun s hs => hunit s (Sample.mem_sorted.mp hs)
  unfold flush arbitrate
  split
  next => exact .refl t
  next =>
    dsimp only
    split
    next h => simpa [h] using hmasters
    next u h =>
      rw [h] at hmasters
      split
      next => exact hmasters
      next =>
        split
        next => exact hmasters
        next => exact hmasters.trans (flushOrdinary_moves hsorted)

/-! ## One unit in a whole selection -/

/-- The winners of a unit, in the order in which they are given out. -/
def winnersOf (unit : String) (events : List SelectionEvent) : List Candidate :=
  (events.filterMap SelectionEvent.winner?).filter (·.unit = unit)

variable {given : List (String × String)} {steps : List SelectionStep}
  {events : List SelectionEvent}

theorem winnersOf_block (unit b : String) (asked : Bool) (cs : List Candidate)
    (events : List SelectionEvent) :
    winnersOf unit (.flush b :: (if asked then [.history b] else []) ++ cs.map .winner ++ events) =
      cs.filter (·.unit = unit) ++ winnersOf unit events := by
  unfold winnersOf
  rw [List.filterMap_append, (SelectionEvent.of_block b asked cs).2.2, List.filter_append]

/-- What is given out depends on which of the keys have been given out before. -/
theorem giveOut_congr {given given' : List (String × String)} {cs : List Candidate}
    (h : ∀ c ∈ cs, c.key ∈ given ↔ c.key ∈ given') :
    (giveOut given none cs).1 = (giveOut given' none cs).1 := by
  induction cs generalizing given given' with
  | nil => rfl
  | cons c rest ih =>
    have hc := h c List.mem_cons_self
    have hrest : ∀ d ∈ rest, d.key ∈ given ↔ d.key ∈ given' :=
      fun d hd => h d (List.mem_cons_of_mem c hd)
    by_cases hmem : c.key ∈ given
    · simp only [giveOut, List.contains_iff_mem.mpr hmem, List.contains_iff_mem.mpr (hc.mp hmem),
        reduceCtorEq, ↓reduceIte]
      exact ih hrest
    · have hmem' : c.key ∉ given' := fun h => hmem (hc.mpr h)
      simp only [giveOut, List.contains_iff_mem, hmem, hmem', reduceCtorEq, ↓reduceIte,
        Option.map_none]
      congr 1
      refine ih ?_
      intro d hd
      simp only [List.mem_cons, hrest d hd]

/-- What a block of another unit gives out is not won at a unit. -/
theorem filter_giveOut_other {b : String} {cs : List Candidate} (hown : ∀ c ∈ cs, c.unit = b)
    (hne : b ≠ unit) : (giveOut given none cs).1.filter (·.unit = unit) = [] := by
  refine List.filter_eq_nil_iff.mpr ?_
  intro c hc
  simpa [hown c ((giveOut_spec given cs).1.subset hc)] using hne

/-- After a block of another unit, nothing more has been given out at a unit. -/
theorem given_giveOut_other {b : String} {cs : List Candidate} (hown : ∀ c ∈ cs, c.unit = b)
    (hne : b ≠ unit) (hgiven : ∀ k ∈ given, k.1 ≠ unit) :
    ∀ k ∈ (giveOut given none cs).2.1, k.1 ≠ unit := by
  intro k hk
  rw [(giveOut_spec given cs).2.2.2] at hk
  rcases List.mem_append.mp hk with hk | hk
  · obtain ⟨c, hc, rfl⟩ := List.mem_map.mp (List.mem_reverse.mp hk)
    change c.unit ≠ unit
    rw [hown c ((giveOut_spec given cs).1.subset hc)]
    exact hne
  · exact hgiven k hk

/-- Where nothing has been given out at a unit, its block gives out what it would give out alone. -/
theorem filter_giveOut_own {cs : List Candidate} (hown : ∀ c ∈ cs, c.unit = unit)
    (hgiven : ∀ k ∈ given, k.1 ≠ unit) :
    (giveOut given none cs).1.filter (·.unit = unit) = (giveOut [] none cs).1 := by
  have hall : ∀ c ∈ (giveOut given none cs).1, decide (c.unit = unit) = true :=
    fun c hc => decide_eq_true (hown c ((giveOut_spec given cs).1.subset hc))
  rw [List.filter_eq_self.mpr hall]
  refine giveOut_congr ?_
  intro c hc
  refine iff_of_false ?_ List.not_mem_nil
  intro hmem
  exact hgiven _ hmem (hown c hc)

/-- The block of another unit leaves the timers of a unit alone. -/
theorem flush_moves_other {b : Block} (hunit : ∀ s ∈ b.samples, s.unit = b.unit)
    (hne : b.unit ≠ unit) :
    Moves (·.unit ≠ unit) t (sel.flush b.unit b.samples t).timers := by
  refine (flush_moves hunit).mono ?_
  intro key hk
  rw [hk]
  exact hne

namespace Went

/-- A selection that has no block of a unit wins nothing at it and leaves its timers alone. -/
theorem elsewhere (h : sel.Went given t steps events u)
    (hunit : ∀ b ∈ steps.filterMap SelectionStep.judged?, ∀ s ∈ b.samples, s.unit = b.unit)
    (hnone : ∀ b ∈ steps.filterMap SelectionStep.judged?, b.unit ≠ unit) :
    winnersOf unit events = [] ∧ Moves (·.unit ≠ unit) t u := by
  induction h with
  | done => exact ⟨rfl, .refl _⟩
  | take s _ ih =>
    obtain ⟨hwinners, hmoves⟩ := ih hunit hnone
    exact ⟨by simpa [winnersOf, List.filterMap_cons, SelectionEvent.winner?] using hwinners, hmoves⟩
  | @judge given t u steps events b cs ok rest ih =>
    simp only [List.filterMap_cons, SelectionStep.judged?, List.mem_cons, forall_eq_or_imp]
      at hunit hnone
    obtain ⟨hwinners, hmoves⟩ := ih hunit.2 hnone.2
    have hown := unit_of_flush hunit.1 ok
    refine ⟨?_, (flush_moves_other hunit.1 hnone.1).trans hmoves⟩
    rw [winnersOf_block, hwinners, List.append_nil, filter_giveOut_other hown hnone.1]

/-- The one block of a unit decides what is won at the unit and how its timers are left. -/
theorem alone (h : sel.Went given t steps events u)
    (hunit : ∀ b ∈ steps.filterMap SelectionStep.judged?, ∀ s ∈ b.samples, s.unit = b.unit)
    (honce : ((steps.filterMap SelectionStep.judged?).map (·.unit)).Nodup)
    (hgiven : ∀ k ∈ given, k.1 ≠ unit)
    (hsamples : ∀ b ∈ steps.filterMap SelectionStep.judged?, b.unit = unit → b.samples = samples)
    (hempty : (∀ b ∈ steps.filterMap SelectionStep.judged?, b.unit ≠ unit) → samples = []) :
    ∃ v cs, Moves (·.unit ≠ unit) t v ∧ (sel.flush unit samples v).winners = .ok cs ∧
      winnersOf unit events = (giveOut [] none cs).1 ∧
        Moves (·.unit ≠ unit) (sel.flush unit samples v).timers u := by
  -- before the block of the unit its timers and keys are left alone, and behind it as well
  induction h with
  | done t =>
    obtain rfl := hempty (by simp)
    exact ⟨_, [], .refl _, rfl, rfl, .refl _⟩
  | take s _ ih =>
    obtain ⟨v, cs, hbefore, hflush, hwinners, hafter⟩ := ih hunit honce hgiven hsamples hempty
    refine ⟨v, cs, hbefore, hflush, ?_, hafter⟩
    simpa [winnersOf, List.filterMap_cons, SelectionEvent.winner?] using hwinners
  | @judge given t u steps events b cs ok rest ih =>
    simp only [List.filterMap_cons, SelectionStep.judged?, List.map_cons, List.nodup_cons,
      List.mem_cons, forall_eq_or_imp] at hunit honce hsamples hempty
    have hown := unit_of_flush hunit.1 ok
    by_cases hb : b.unit = unit
    · have hnone : ∀ c ∈ steps.filterMap SelectionStep.judged?, c.unit ≠ unit := by
        intro c hc he
        exact honce.1 (List.mem_map.mpr ⟨c, hc, he.trans hb.symm⟩)
      obtain ⟨hwinners, hmoves⟩ := rest.elsewhere hunit.2 hnone
      obtain rfl := hsamples.1 hb
      rw [hb] at ok hmoves hown ⊢
      refine ⟨t, cs, .refl t, ok, ?_, hmoves⟩
      rw [winnersOf_block, hwinners, List.append_nil, filter_giveOut_own hown hgiven]
    · obtain ⟨v, cs', hbefore, hflush, hwinners, hafter⟩ :=
        ih hunit.2 honce.2 (given_giveOut_other hown hb hgiven) hsamples.2 fun h => hempty ⟨hb, h⟩
      refine ⟨v, cs', (flush_moves_other hunit.1 hb).trans hbefore, hflush, ?_, hafter⟩
      rw [winnersOf_block, filter_giveOut_other hown hb, List.nil_append, hwinners]

end Went

end Selector

/-! ## The block of a unit -/

/-- The samples of a unit, those of the stream before the extra ones. -/
def samplesOf (unit : String) (stream extra : List Sample) : List Sample :=
  stream.filter (·.unit = unit) ++ extra.filter (·.unit = unit)

/-- The one block of a unit holds all samples of the unit. -/
theorem samples_of_block {stream extra : List Sample} {b : Block}
    (honce : ((blocks stream extra).map (·.unit)).Nodup) (hb : b ∈ blocks stream extra) :
    b.samples = samplesOf b.unit stream extra := by
  obtain ⟨before, after, hsplit⟩ := List.append_of_mem hb
  rw [hsplit, List.map_append, List.map_cons] at honce
  obtain ⟨-, hafter, hacross⟩ := List.nodup_append'.mp honce
  have hnew : b.unit ∉ before.map (·.unit) := fun h => hacross h List.mem_cons_self
  have hindex : (blocks stream extra)[before.length]? = some b := by simp [hsplit]
  have hextra := extra_of_block stream extra hindex
  rw [hsplit, List.take_left, if_neg hnew] at hextra
  have hothers (bs : List Block) (hbs : ∀ c ∈ bs, c ∈ blocks stream extra)
      (hne : b.unit ∉ bs.map (·.unit)) :
      (bs.flatMap (·.streamed)).filter (·.unit = b.unit) = [] := by
    refine List.filter_eq_nil_iff.mpr ?_
    intro s hs he
    obtain ⟨c, hc, hsc⟩ := List.mem_flatMap.mp hs
    have hunit := unit_of_mem_samples stream extra (hbs c hc) (List.mem_append_left _ hsc)
    exact hne (List.mem_map.mpr ⟨c, hc, hunit.symm.trans (of_decide_eq_true he)⟩)
  have hown : b.streamed.filter (·.unit = b.unit) = b.streamed := by
    refine List.filter_eq_self.mpr ?_
    intro s hs
    exact decide_eq_true (unit_of_mem_samples stream extra hb (List.mem_append_left _ hs))
  have hstream := congrArg (List.filter (·.unit = b.unit)) (streamed_blocks stream extra)
  rw [hsplit, List.flatMap_append, List.flatMap_cons, List.filter_append, List.filter_append, hown,
    hothers before (by simp +contextual [hsplit]) hnew,
    hothers after (by simp +contextual [hsplit]) (List.nodup_cons.mp hafter).1, List.nil_append,
    List.append_nil] at hstream
  rw [Block.samples, samplesOf, ← hstream, hextra]

/-- A unit without a block has no samples. -/
theorem samplesOf_eq_nil {stream extra : List Sample} {unit : String}
    (hnone : ∀ b ∈ blocks stream extra, b.unit ≠ unit) : samplesOf unit stream extra = [] := by
  have hstream : ∀ s ∈ stream, s.unit ≠ unit := by
    intro s hs
    rw [← streamed_blocks stream extra] at hs
    obtain ⟨b, hb, hsb⟩ := List.mem_flatMap.mp hs
    rw [unit_of_mem_samples stream extra hb (List.mem_append_left _ hsb)]
    exact hnone b hb
  have hextra : ∀ s ∈ extra, s.unit ≠ unit := by
    intro s hs
    obtain ⟨b, hb, hsb⟩ := List.mem_flatMap.mp ((extra_blocks_perm stream extra).mem_iff.mpr hs)
    rw [unit_of_mem_samples stream extra hb (List.mem_append_right _ hsb)]
    exact hnone b hb
  rw [samplesOf, List.append_eq_nil_iff]
  exact ⟨List.filter_eq_nil_iff.mpr fun s hs => by simpa using hstream s hs,
    List.filter_eq_nil_iff.mpr fun s hs => by simpa using hextra s hs⟩

/-! ## Two selections -/

namespace Selector

variable {sel : Selector} {unit : String} {t t' : Timers}

/-- What a selection that does not fail comes to at a unit that has one block. -/
theorem select_alone {stream extra : List Sample}
    (hruns : (unitRuns stream).Pairwise fun a b => ∀ x ∈ a, ∀ y ∈ b, x.unit ≠ y.unit)
    (hdone : ∀ e, .failed e ∉ (sel.select none stream extra t).1) :
    ∃ v cs, Moves (·.unit ≠ unit) t v ∧
      (sel.flush unit (samplesOf unit stream extra) v).winners = .ok cs ∧
      winnersOf unit (sel.select none stream extra t).1 = (giveOut [] none cs).1 ∧
      Moves (·.unit ≠ unit) (sel.flush unit (samplesOf unit stream extra) v).timers
        (sel.select none stream extra t).2 := by
  obtain ⟨hwent, hcomplete⟩ := select_complete hdone
  have honce := nodup_blocks_units stream extra hruns
  have hunit := hcomplete.unit
  rw [← judged_selectionSteps] at honce
  refine hwent.alone hunit honce (by simp) ?_ ?_
  · intro b hb he
    rw [judged_selectionSteps] at honce hb
    rw [← he]
    exact samples_of_block honce hb
  · intro hnone
    rw [judged_selectionSteps] at hnone
    exact samplesOf_eq_nil hnone

/-- Two selections that agree on the samples, past readings and timers of a unit win the same at it,
in the same order, and leave its timers the same. -/
theorem select_unit_apart {past : Option (String → List Sample)}
    {stream extra stream' extra' : List Sample} (hr : t.Reliable) (hr' : t'.Reliable)
    (hdurable : t'.durable = t.durable)
    (hruns : (unitRuns stream).Pairwise fun a b => ∀ x ∈ a, ∀ y ∈ b, x.unit ≠ y.unit)
    (hruns' : (unitRuns stream').Pairwise fun a b => ∀ x ∈ a, ∀ y ∈ b, x.unit ≠ y.unit)
    (hdone : ∀ e, .failed e ∉ (sel.select none stream extra t).1)
    (hdone' : ∀ e, .failed e ∉ ((sel.recalling past).select none stream' extra' t').1)
    (hstream : stream'.filter (·.unit = unit) = stream.filter (·.unit = unit))
    (hextra : extra'.filter (·.unit = unit) = extra.filter (·.unit = unit))
    (hpast : (past.map (· unit)).getD [] = (sel.history.map (· unit)).getD [])
    (hrecords : ∀ key, key.unit = unit → t'.find? key = t.find? key) :
    winnersOf unit ((sel.recalling past).select none stream' extra' t').1 =
        winnersOf unit (sel.select none stream extra t).1 ∧
      ∀ key, key.unit = unit →
        ((sel.recalling past).select none stream' extra' t').2.find? key =
          (sel.select none stream extra t).2.find? key := by
  have hstart : Timers.Alike (·.unit = unit) t t' := .of_reliable hr hr' hdurable hrecords
  obtain ⟨v, cs, hbefore, hflush, hwinners, hafter⟩ := @select_alone _ unit _ _ _ hruns hdone
  obtain ⟨v', cs', hbefore', hflush', hwinners', hafter'⟩ :=
    @select_alone _ unit _ _ _ hruns' hdone'
  have hsame : samplesOf unit stream' extra' = samplesOf unit stream extra := by
    rw [samplesOf, samplesOf, hstream, hextra]
  rw [hsame] at hflush' hafter'
  have hother : ∀ key : TimerKey, key.unit ≠ unit → ¬ key.unit = unit := fun _ h => h
  have hreached : Timers.Alike (·.unit = unit) v v' :=
    ((hstart.moved hbefore' hother).symm.moved hbefore hother).symm
  have hunit : ∀ s ∈ samplesOf unit stream extra, s.unit = unit := by
    intro s hs
    rcases List.mem_append.mp hs with hs | hs
    · exact of_decide_eq_true (List.mem_filter.mp hs).2
    · exact of_decide_eq_true (List.mem_filter.mp hs).2
  have hhistory : (sel.recalling past).historyOf unit = sel.historyOf unit := by
    unfold historyOf recalling
    dsimp only
    rw [hpast]
  obtain ⟨hok, hleft⟩ := flush_alike hhistory hunit hreached hflush
  obtain rfl : cs' = cs := Except.ok.inj (hflush'.symm.trans hok)
  have hend := ((hleft.moved hafter' hother).symm.moved hafter hother).symm
  exact ⟨hwinners'.trans hwinners.symm, hend.find?⟩

/-! ## A silent unit among others -/

/-- A silence of half an hour is a fault. -/
def silenceWatch : Selector := ⟨[], [.reads "Tag8" 0 30], [], .single, none, 0⟩

/-- The unit alone. -/
def lone : List Sample := [.reading "Tag8" 0 40]

/-- The same unit between others. -/
def crowded : List Sample :=
  [{ Sample.reading "Tag8" 0 90 with unit := "100" }, .reading "Tag8" 0 40,
    { Sample.reading "Tag8" 1 10 with unit := "102" }]

theorem silenceWatch_done (past : Option (String → List Sample)) (stream extra : List Sample)
    (t : Timers) (e : Failure) :
    .failed e ∉ ((silenceWatch.recalling past).select none stream extra t).1 := by
  rw [select_eq_follow]
  exact follow_done (flush_of_simple rfl rfl) [] (selectionSteps stream extra) t e

/-- The silent unit wins the same alone and among units with readings, timers and past readings of
their own. -/
theorem lone_as_crowded :
    let noisy := silent.written ⟨"102", "Tag8", "0"⟩ (.utc 0)
    let past : Option (String → List Sample) :=
      some fun unit => if unit = "101" then [] else crowded
    winnersOf "101" ((silenceWatch.recalling past).select none crowded detected.dropLast noisy).1 =
        winnersOf "101" (silenceWatch.select none lone [] silent).1 ∧
      ∀ key, key.unit = "101" →
        ((silenceWatch.recalling past).select none crowded detected.dropLast noisy).2.find? key =
          (silenceWatch.select none lone [] silent).2.find? key := by
  refine select_unit_apart silent_reliable ⟨rfl, fun _ _ => rfl⟩ rfl (by decide +kernel)
    (by decide +kernel) (silenceWatch_done none _ _ _) (silenceWatch_done _ _ _ _) ?_ ?_ rfl ?_
  · simp [lone, crowded, Sample.reading]
  · simp [detected, Sample.reading]
  · intro key hk
    rw [find?_written, if_neg]
    rintro rfl
    exact absurd hk (by decide)

end Selector

end FaultDesk
