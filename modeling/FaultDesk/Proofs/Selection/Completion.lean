import FaultDesk.Proofs.Selection.Partition
import FaultDesk.Proofs.Selection.Winners

/-!
A selection that comes to its end without an error. It has judged every block of its samples, given
out no key twice, and kept count of what it has seen.
-/

namespace FaultDesk

/-! ## The events of a selection -/

namespace SelectionEvent

/-- The unit whose block is complete. -/
def flush? : SelectionEvent → Option String
  | flush unit => some unit
  | _ => none

theorem of_block (unit : String) (asked : Bool) (cs : List Candidate) :
    let events := flush unit :: (if asked then [history unit] else []) ++ cs.map winner
    events.filterMap read? = [] ∧ events.filterMap flush? = [unit] ∧
      events.filterMap winner? = cs := by
  cases asked <;>
    simp [List.filterMap_cons, List.filterMap_map, Function.comp_def, read?, flush?, winner?]

theorem flushes_eq (events : List SelectionEvent) :
    flushes events = (events.filterMap flush?).length := by
  induction events with
  | nil => rfl
  | cons e rest ih =>
    unfold flushes at ih ⊢
    cases e <;> simp [List.countP_cons, List.filterMap_cons, isFlush, flush?, ih]

theorem latest_eq_max? (events : List SelectionEvent) :
    latest none events = ((events.filterMap read?).map (·.time)).max? := by
  have hfold (m : Instant) (ss : List Sample) :
      ss.foldl (fun m s => some (max (m.getD s.time) s.time)) (some m) =
        some ((ss.map (·.time)).foldl max m) := by
    induction ss generalizing m with
    | nil => rfl
    | cons s rest ih => exact ih (max m s.time)
  unfold latest
  cases events.filterMap read? with
  | nil => rfl
  | cons s rest =>
    rw [List.foldl_cons, List.map_cons, List.max?_cons', Option.getD_none, max_self]
    exact hfold s.time rest

end SelectionEvent

/-! ## Going through the steps -/

namespace Selector

variable {sel : Selector} {given : List (String × String)} {t u : Timers}
  {steps : List SelectionStep} {events : List SelectionEvent}

/-- The winners that are given out have new keys, all different, and their keys are kept. -/
theorem giveOut_spec (given : List (String × String)) (cs : List Candidate) :
    (giveOut given none cs).1.Sublist cs ∧
      ((giveOut given none cs).1.map Candidate.key).Nodup ∧
      (∀ c ∈ (giveOut given none cs).1, c.key ∉ given) ∧
      (giveOut given none cs).2.1 =
        ((giveOut given none cs).1.map Candidate.key).reverse ++ given := by
  induction cs generalizing given with
  | nil => simp [giveOut]
  | cons c rest ih =>
    simp only [giveOut, reduceCtorEq, ↓reduceIte, Option.map_none]
    split
    next =>
      obtain ⟨hsub, hrest⟩ := ih given
      exact ⟨hsub.cons c, hrest⟩
    next hnew =>
      obtain ⟨hsub, hnodup, hfresh, hgiven⟩ := ih (c.key :: given)
      have hnew : c.key ∉ given := by simpa using hnew
      refine ⟨hsub.cons_cons c, ?_, ?_, by simp [hgiven]⟩
      · refine List.nodup_cons.mpr ⟨?_, hnodup⟩
        intro hmem
        obtain ⟨d, hd, hkey⟩ := List.mem_map.mp hmem
        exact hfresh d hd (hkey ▸ List.mem_cons_self)
      · intro d hd
        rcases List.mem_cons.mp hd with rfl | hd
        · exact hnew
        · exact fun hmem => hfresh d hd (List.mem_cons_of_mem _ hmem)

/-- The steps gone through without an error, from the keys given out so far and the timers to the
timers at the end, with the events on the way. -/
inductive Went (sel : Selector) : List (String × String) → Timers → List SelectionStep →
    List SelectionEvent → Timers → Prop where
  | done (given : List (String × String)) (t : Timers) : Went sel given t [] [] t
  | take {given : List (String × String)} {t u : Timers} {steps : List SelectionStep}
      {events : List SelectionEvent} (s : Sample) (rest : Went sel given t steps events u) :
      Went sel given t (.take s :: steps) (.read s :: events) u
  | judge {given : List (String × String)} {t u : Timers} {steps : List SelectionStep}
      {events : List SelectionEvent} (b : Block) {cs : List Candidate}
      (ok : (sel.flush b.unit b.samples t).winners = .ok cs)
      (rest : Went sel (giveOut given none cs).2.1 (sel.flush b.unit b.samples t).timers steps
        events u) :
      Went sel given t (.judge b :: steps)
        (.flush b.unit ::
          (if (sel.flush b.unit b.samples t).asked then [.history b.unit] else []) ++
            (giveOut given none cs).1.map .winner ++ events) u

theorem follow_went {given : List (String × String)} {steps : List SelectionStep} {t : Timers}
    (hdone : ∀ e, .failed e ∉ (sel.follow given steps t).1) :
    sel.Went given t steps (sel.follow given steps t).1 (sel.follow given steps t).2 := by
  induction steps generalizing given t with
  | nil => exact .done given t
  | cons step rest ih =>
    cases step with
    | take s =>
      refine .take s (ih ?_)
      intro e he
      exact hdone e (List.mem_cons_of_mem _ he)
    | judge b =>
      cases hflush : (sel.flush b.unit b.samples t).winners with
      | error e =>
        refine absurd ?_ (hdone e)
        simp [follow, hflush]
      | ok cs =>
        simp only [follow, hflush] at hdone ⊢
        refine .judge b hflush (ih ?_)
        intro e he
        exact hdone e (List.mem_append_right _ he)

namespace Went

theorem reads (h : sel.Went given t steps events u) :
    events.filterMap SelectionEvent.read? = steps.filterMap SelectionStep.taken? := by
  induction h with
  | done => rfl
  | take s _ ih => simp [SelectionEvent.read?, SelectionStep.taken?, ih]
  | judge b ok rest ih =>
    rw [List.filterMap_append, (SelectionEvent.of_block ..).1, ih]
    rfl

theorem flushed (h : sel.Went given t steps events u) :
    events.filterMap SelectionEvent.flush? =
      (steps.filterMap SelectionStep.judged?).map (·.unit) := by
  induction h with
  | done => rfl
  | take s _ ih => simp [List.filterMap_cons, SelectionEvent.flush?, SelectionStep.judged?, ih]
  | judge b ok rest ih =>
    rw [List.filterMap_append, (SelectionEvent.of_block ..).2.1, ih]
    rfl

/-- No key is given out twice, or again. -/
theorem keys (h : sel.Went given t steps events u) :
    ((events.filterMap SelectionEvent.winner?).map Candidate.key).Nodup ∧
      ∀ c ∈ events.filterMap SelectionEvent.winner?, c.key ∉ given := by
  induction h with
  | done => simp
  | take s _ ih => simpa [List.filterMap_cons, SelectionEvent.winner?] using ih
  | @judge given t u steps events b cs ok rest ih =>
    obtain ⟨-, hnodup, hnew, hgiven⟩ := giveOut_spec given cs
    obtain ⟨hrest, hfresh⟩ := ih
    rw [hgiven] at hfresh
    rw [List.filterMap_append, (SelectionEvent.of_block ..).2.2, List.map_append]
    constructor
    · refine hnodup.append hrest ?_
      intro k hk hk'
      obtain ⟨c, hc, rfl⟩ := List.mem_map.mp hk'
      exact hfresh c hc (List.mem_append_left _ (List.mem_reverse.mpr hk))
    · intro c hc
      rcases List.mem_append.mp hc with hc | hc
      · exact hnew c hc
      · exact fun hmem => hfresh c hc (List.mem_append_right _ hmem)

/-- Where one winner is wanted of a block, the winners are of different blocks. -/
theorem units_single (h : sel.Went given t steps events u) (hpolicy : sel.policy = .single)
    (hunit : ∀ b ∈ steps.filterMap SelectionStep.judged?, ∀ s ∈ b.samples, s.unit = b.unit) :
    ((events.filterMap SelectionEvent.winner?).map (·.unit)).Sublist
      ((steps.filterMap SelectionStep.judged?).map (·.unit)) := by
  induction h with
  | done => exact List.Sublist.refl _
  | take s _ ih =>
    simpa [List.filterMap_cons, SelectionEvent.winner?, SelectionStep.judged?] using ih hunit
  | @judge given t u steps events b cs ok rest ih =>
    have hsub := (giveOut_spec given cs).1
    rw [List.filterMap_append, (SelectionEvent.of_block ..).2.2, List.map_append]
    simp only [List.filterMap_cons, SelectionStep.judged?, List.mem_cons, forall_eq_or_imp] at hunit
    obtain ⟨hown, hothers⟩ := hunit
    have hfirst : ((giveOut given none cs).1.map (·.unit)).Sublist [b.unit] := by
      have hall := unit_of_flush hown ok
      have hlen := length_flush_single hpolicy ok
      have hsame : cs.map (·.unit) = List.replicate cs.length b.unit := by
        rw [← List.map_const']
        exact List.map_congr_left hall
      have hone : (List.replicate cs.length b.unit).Sublist (List.replicate 1 b.unit) :=
        (List.replicate_sublist_replicate _).mpr hlen
      exact (hsub.map _).trans (hsame ▸ hone)
    exact hfirst.append (ih hothers)

end Went

/-- What a selection that has come to its end has done with its samples: the blocks it has handed
over to be judged, and what its events show. -/
structure Complete (sel : Selector) (stream extra : List Sample) (handed : List Block)
    (events : List SelectionEvent) : Prop where
  /-- The blocks hold the stream, in order. -/
  streamed : handed.flatMap (·.streamed) = stream
  unit : ∀ b ∈ handed, ∀ s ∈ b.samples, s.unit = b.unit
  /-- The first block of a unit holds all extra samples of the unit. -/
  joins : ∀ i b, handed[i]? = some b →
    b.extra = if b.unit ∈ (handed.take i).map (·.unit) then [] else extra.filter (·.unit = b.unit)
  /-- Every extra sample is in one block. -/
  shared : (handed.flatMap (·.extra)).Perm extra
  judged : events.filterMap SelectionEvent.flush? = handed.map (·.unit)
  once : ((events.filterMap SelectionEvent.winner?).map Candidate.key).Nodup
  latest : SelectionEvent.latest none events = (stream.map (·.time)).max?
  flushes : SelectionEvent.flushes events =
    (unitRuns stream).length + (unitsBeyond stream extra).length
  /-- At most one winner for each unit, where one is wanted of a block and each unit of the stream
  forms one block. -/
  single : sel.policy = .single →
    ((unitRuns stream).Pairwise fun a b => ∀ x ∈ a, ∀ y ∈ b, x.unit ≠ y.unit) →
      ((events.filterMap SelectionEvent.winner?).map (·.unit)).Nodup

/-- A selection that does not end for an error goes through all steps of its stream; no sample is
lost or judged twice, and no winner is given out twice. -/
theorem select_complete {stream extra : List Sample}
    (hdone : ∀ e, .failed e ∉ (sel.select none stream extra t).1) :
    sel.Went [] t (selectionSteps stream extra) (sel.select none stream extra t).1
        (sel.select none stream extra t).2 ∧
      sel.Complete stream extra ((selectionSteps stream extra).filterMap SelectionStep.judged?)
        (sel.select none stream extra t).1 := by
  rw [select_eq_follow] at hdone ⊢
  have hwent := follow_went hdone
  generalize (sel.follow [] (selectionSteps stream extra) t).1 = events at hwent ⊢
  have hreads := hwent.reads
  have hflushed := hwent.flushed
  have hsingle := hwent.units_single
  rw [taken_selectionSteps] at hreads
  rw [judged_selectionSteps] at hflushed hsingle ⊢
  have hunit : ∀ b ∈ blocks stream extra, ∀ s ∈ b.samples, s.unit = b.unit :=
    fun b hb s hs => unit_of_mem_samples stream extra hb hs
  refine ⟨hwent, streamed_blocks stream extra, hunit, fun i b hb => extra_of_block stream extra hb,
    extra_blocks_perm stream extra, hflushed, hwent.keys.1, ?_, ?_, ?_⟩
  · rw [SelectionEvent.latest_eq_max?, hreads]
  · rw [SelectionEvent.flushes_eq, hflushed, List.length_map, length_blocks]
  · intro hpolicy hruns
    exact (nodup_blocks_units stream extra hruns).sublist (hsingle hpolicy hunit)

/-! ## Selections that never fail -/

theorem search_of_no_rate (hrate : sel.rate = []) (unit : String)
    (pairs : List (Sample × List Sample)) (st : Search) : (sel.search unit pairs st).1 = none := by
  induction pairs generalizing st with
  | nil => rfl
  | cons p rest ih =>
    obtain ⟨s, related⟩ := p
    have hasks : sel.asksHistory s = false := by simp [asksHistory, hrate]
    simp only [search, hasks, Bool.false_eq_true, ↓reduceIte]
    exact ih _

theorem flush_of_simple (hmasters : sel.masters = []) (hrate : sel.rate = []) (unit : String)
    (samples : List Sample) (t : Timers) : ∃ cs, (sel.flush unit samples t).winners = .ok cs := by
  by_cases hne : samples = []
  · subst samples
    exact ⟨[], rfl⟩
  · have ha : (arbitrate unit (Sample.sorted samples) sel.masters t).1 = .ok ⟨none, []⟩ := by
      rw [hmasters]
      rfl
    rw [flush_of_arbitrate hne ha]
    generalize (arbitrate unit (Sample.sorted samples) sel.masters t).2 = u
    have hsearch := search_of_no_rate hrate unit (withRelated [] (Sample.sorted samples))
      ⟨u, none, []⟩
    simp only [Option.none_or, latestBy, flushOrdinary]
    split
    next e st hst =>
      rw [hst] at hsearch
      cases hsearch
    next st hst => exact ⟨_, rfl⟩

theorem follow_done (hflush : ∀ unit samples t, ∃ cs, (sel.flush unit samples t).winners = .ok cs)
    (given : List (String × String)) (steps : List SelectionStep) (t : Timers) (e : Failure) :
    .failed e ∉ (sel.follow given steps t).1 := by
  induction steps generalizing given t with
  | nil => exact List.not_mem_nil
  | cons step rest ih =>
    cases step with
    | take s => simpa [follow] using ih given t
    | judge b =>
      obtain ⟨cs, hcs⟩ := hflush b.unit b.samples t
      have hrest := ih (giveOut given none cs).2.1 (sel.flush b.unit b.samples t).timers
      simp only [follow, hcs]
      split <;> simpa using hrest

/-- Every reading of zero is a fault. -/
def zeroWatch : Selector := ⟨[], [.reads "Tag8" 0 0], [], .single, none, 0⟩

/-- A unit that is seen again behind another one. -/
def returning : List Sample :=
  [.reading "Tag8" 0 0, { Sample.reading "Tag8" 0 40 with unit := "102" }, .reading "Tag8" 0 5]

/-- Extra samples of a unit of the stream and of one beyond it. -/
def detected : List Sample :=
  [{ Sample.reading "Tag9" 1 50 with unit := "103" }, .reading "Tag9" 1 0]

theorem zeroWatch_done (stream extra : List Sample) (t : Timers) (e : Failure) :
    .failed e ∉ (zeroWatch.select none stream extra t).1 := by
  rw [select_eq_follow]
  exact follow_done (flush_of_simple rfl rfl) [] (selectionSteps stream extra) t e

/-- Four blocks are judged, and the latest time is that of the stream; where each unit is seen once,
it has one winner at most. -/
theorem zeroWatch_complete :
    SelectionEvent.flushes (zeroWatch.select none returning detected silent).1 = 4 ∧
      SelectionEvent.latest none (zeroWatch.select none returning detected silent).1 =
        some 2400000000 ∧
      (((zeroWatch.select none returning.tail detected silent).1.filterMap
        SelectionEvent.winner?).map (·.unit)).Nodup := by
  obtain ⟨-, hcomplete⟩ := select_complete (zeroWatch_done returning detected silent)
  obtain ⟨-, hordered⟩ := select_complete (zeroWatch_done returning.tail detected silent)
  refine ⟨?_, ?_, hordered.single rfl (by decide +kernel)⟩
  · rw [hcomplete.flushes]
    decide +kernel
  · rw [hcomplete.latest]
    decide +kernel

end Selector

end FaultDesk
