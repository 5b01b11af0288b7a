import FaultDesk.Proofs.Rate.Window
import FaultDesk.Proofs.Selection.Hits

/-!
The two policies for the winners of a block. Both go by the same hits. One winner is the last hit; the
winners of each tag are the last hits of each tag, and the last of all is among them.
-/

namespace FaultDesk

/-! ## Hits in order of time -/

section InOrder

variable {hits best : List Candidate} {c : Candidate}

/-- The latest of hits in order of time is the last one. -/
theorem latestBy_of_ordered (hordered : hits.Pairwise fun a b => a.time ≤ b.time) :
    latestBy (·.time) hits = hits.getLast? := by
  induction hits using List.reverseRecOn with
  | nil => rfl
  | append_singleton hits c ih =>
    obtain ⟨hfront, -, hlast⟩ := List.pairwise_append.mp hordered
    rw [latestBy_concat, ih hfront, List.getLast?_concat]
    cases hbest : hits.getLast? with
    | none => rfl
    | some b =>
      have hle : b.time ≤ c.time := hlast b (List.mem_of_getLast? hbest) c (List.mem_singleton_self c)
      simp [hle]

theorem tags_withHit : (withHit best c).map (·.tag) =
    if c.tag ∈ best.map (·.tag) then best.map (·.tag) else best.map (·.tag) ++ [c.tag] := by
  induction best with
  | nil => rfl
  | cons b rest ih =>
    by_cases hb : b.tag = c.tag
    · have htag : (if b.time ≤ c.time then c else b).tag = b.tag := by
        split
        next => exact hb.symm
        next => rfl
      simp [withHit, hb, htag]
    · have hne : c.tag ≠ b.tag := fun h => hb h.symm
      simp only [withHit, hb, ↓reduceIte, List.map_cons, ih, List.mem_cons, hne, false_or]
      split <;> rfl

/-- A hit that is not before the others takes the place of the one of its tag. -/
theorem mem_withHit_iff (hnodup : (best.map (·.tag)).Nodup) (hlatest : ∀ b ∈ best, b.time ≤ c.time)
    {d : Candidate} : d ∈ withHit best c ↔ d = c ∨ d ∈ best ∧ d.tag ≠ c.tag := by
  induction best with
  | nil => simp [withHit]
  | cons b rest ih =>
    obtain ⟨hfirst, hrest⟩ := List.nodup_cons.mp hnodup
    by_cases hb : b.tag = c.tag
    · have hothers : ∀ d ∈ rest, d.tag ≠ c.tag := by
        intro d hd htag
        exact hfirst (List.mem_map.mpr ⟨d, hd, htag.trans hb.symm⟩)
      have hle := hlatest b List.mem_cons_self
      simp only [withHit, hb, hle, ↓reduceIte, List.mem_cons]
      constructor
      · rintro (rfl | hd)
        · exact Or.inl rfl
        · exact Or.inr ⟨Or.inr hd, hothers d hd⟩
      · rintro (rfl | ⟨rfl | hd, htag⟩)
        · exact Or.inl rfl
        · exact absurd hb htag
        · exact Or.inr hd
    · have hmore := ih hrest fun d hd => hlatest d (List.mem_cons_of_mem b hd)
      simp only [withHit, hb, ↓reduceIte, List.mem_cons, hmore]
      constructor
      · rintro (rfl | rfl | ⟨hd, htag⟩)
        · exact Or.inr ⟨Or.inl rfl, hb⟩
        · exact Or.inl rfl
        · exact Or.inr ⟨Or.inr hd, htag⟩
      · rintro (rfl | ⟨rfl | hd, htag⟩)
        · exact Or.inr (Or.inl rfl)
        · exact Or.inl rfl
        · exact Or.inr (Or.inr ⟨hd, htag⟩)

/-- The hits of a tag. -/
def ofTag (hits : List Candidate) (tag : String) : List Candidate := hits.filter (·.tag == tag)

/-- What hits come down to, one after the other: the last of each tag. -/
theorem foldl_withHit (hordered : hits.Pairwise fun a b => a.time ≤ b.time) :
    ((hits.foldl withHit []).map (·.tag)).Nodup ∧
      ∀ d, d ∈ hits.foldl withHit [] ↔ (ofTag hits d.tag).getLast? = some d := by
  -- Kept along the hits: one of each tag, the last so far.
  induction hits using List.reverseRecOn with
  | nil => simp [ofTag]
  | append_singleton hits c ih =>
    obtain ⟨hfront, -, hlast⟩ := List.pairwise_append.mp hordered
    obtain ⟨hnodup, hmem⟩ := ih hfront
    have hlatest : ∀ b ∈ hits.foldl withHit [], b.time ≤ c.time := by
      intro b hb
      have hin := (mem_foldl_withHit hb).resolve_left List.not_mem_nil
      exact hlast b hin c (List.mem_singleton_self c)
    rw [List.foldl_concat]
    constructor
    · rw [tags_withHit]
      split
      next => exact hnodup
      next hnew => exact List.nodup_append.mpr ⟨hnodup, by simp, by simpa using hnew⟩
    · intro d
      rw [mem_withHit_iff hnodup hlatest, hmem d]
      by_cases htag : d.tag = c.tag
      · simp [ofTag, htag, eq_comm]
      · have hne : c.tag ≠ d.tag := fun h => htag h.symm
        have hdc : d ≠ c := fun h => htag (congrArg Candidate.tag h)
        simp [ofTag, htag, hne, hdc]

theorem mem_lastPerTag : c ∈ lastPerTag hits ↔ c ∈ hits.foldl withHit [] := List.mem_mergeSort

theorem ordered_lastPerTag (hits : List Candidate) :
    (lastPerTag hits).Pairwise fun a b => a.time ≤ b.time := by
  refine (List.pairwise_mergeSort ?_ ?_ _).imp fun hle => of_decide_eq_true hle
  · intro a b c hab hbc
    exact decide_eq_true (Int.le_trans (of_decide_eq_true hab) (of_decide_eq_true hbc))
  · intro a b
    simpa using Int.le_total a.time b.time

/-- The winners of each tag are the last hits of each tag. -/
theorem lastPerTag_spec (hordered : hits.Pairwise fun a b => a.time ≤ b.time) :
    ((lastPerTag hits).map (·.tag)).Nodup ∧
      ∀ d, d ∈ lastPerTag hits ↔ (ofTag hits d.tag).getLast? = some d := by
  obtain ⟨hnodup, hmem⟩ := foldl_withHit hordered
  constructor
  · have hperm := (List.mergeSort_perm (hits.foldl withHit [])
      fun a b => decide (a.time ≤ b.time)).map (·.tag)
    exact hperm.nodup_iff.mpr hnodup
  · intro d
    rw [mem_lastPerTag, hmem d]

/-- Each tag that is hit has a winner, and no other tag has. -/
theorem mem_tags_lastPerTag (hordered : hits.Pairwise fun a b => a.time ≤ b.time) {tag : String} :
    tag ∈ (lastPerTag hits).map (·.tag) ↔ tag ∈ hits.map (·.tag) := by
  obtain ⟨-, hmem⟩ := lastPerTag_spec hordered
  constructor
  · intro h
    obtain ⟨w, hw, rfl⟩ := List.mem_map.mp h
    have hin := List.mem_of_getLast? ((hmem w).mp hw)
    exact List.mem_map_of_mem (List.mem_filter.mp hin).1
  · intro h
    obtain ⟨c, hc, rfl⟩ := List.mem_map.mp h
    have hne : ofTag hits c.tag ≠ [] := List.ne_nil_of_mem (List.mem_filter.mpr ⟨hc, by simp⟩)
    obtain ⟨w, hlast⟩ : ∃ w, (ofTag hits c.tag).getLast? = some w :=
      ⟨_, List.getLast?_eq_some_getLast hne⟩
    have htag : w.tag = c.tag := by simpa using (List.mem_filter.mp (List.mem_of_getLast? hlast)).2
    rw [← htag] at hlast ⊢
    exact List.mem_map_of_mem ((hmem w).mpr hlast)

/-- The last hit of all is the last one of its tag, and no hit is later. -/
theorem last_of_ordered (hordered : hits.Pairwise fun a b => a.time ≤ b.time)
    (hlast : hits.getLast? = some c) :
    (ofTag hits c.tag).getLast? = some c ∧ ∀ d ∈ hits, d.time ≤ c.time := by
  refine ⟨?_, le_of_getLast? hordered hlast⟩
  obtain ⟨front, rfl⟩ := List.getLast?_eq_some_iff.mp hlast
  simp [ofTag]

/-- The last hit of all is a winner where each tag has one, and none of the others is later. -/
theorem last_mem_lastPerTag (hordered : hits.Pairwise fun a b => a.time ≤ b.time)
    (hlast : hits.getLast? = some c) :
    c ∈ lastPerTag hits ∧ ∀ w ∈ lastPerTag hits, w.time ≤ c.time := by
  obtain ⟨-, hmem⟩ := lastPerTag_spec hordered
  obtain ⟨hlast, hle⟩ := last_of_ordered hordered hlast
  refine ⟨(hmem c).mpr hlast, fun w hw => hle w ?_⟩
  have hin := List.mem_of_getLast? ((hmem w).mp hw)
  exact (List.mem_filter.mp hin).1

/-- The tags have no winner exactly if there is no last hit. -/
theorem lastPerTag_eq_nil_iff (hordered : hits.Pairwise fun a b => a.time ≤ b.time) :
    lastPerTag hits = [] ↔ hits.getLast?.toList = [] := by
  cases hlast : hits.getLast? with
  | none =>
    obtain rfl := List.getLast?_eq_none_iff.mp hlast
    simp [lastPerTag]
  | some c =>
    obtain ⟨hin, -⟩ := last_mem_lastPerTag hordered hlast
    simp [List.ne_nil_of_mem hin]

theorem winners_nil (policy : WinnerPolicy) : policy.winners [] = [] := by
  cases policy <;> simp [WinnerPolicy.winners, latestBy, lastPerTag]

end InOrder

/-! ## One block under two policies -/

namespace Selector

variable {sel : Selector} {unit : String} {samples : List Sample} {t : Timers}

/-- The same selector with another policy. -/
def under (sel : Selector) (policy : WinnerPolicy) : Selector := { sel with policy := policy }

/-- The policy has no part in the search. -/
theorem search_under (policy : WinnerPolicy) (pairs : List (Sample × List Sample)) (st : Search) :
    (sel.under policy).search unit pairs st = sel.search unit pairs st := by
  induction pairs generalizing st with
  | nil => rfl
  | cons p rest ih =>
    obtain ⟨s, related⟩ := p
    have hsimple (st : Search) :
        (sel.under policy).trySimple s related st = sel.trySimple s related st := rfl
    have hrate (h : History) (st : Search) :
        (sel.under policy).tryRate s related h st = sel.tryRate s related h st := rfl
    have hasks : (sel.under policy).asksHistory s = sel.asksHistory s := rfl
    have hform : (sel.under policy).historyOf unit = sel.historyOf unit := rfl
    simp only [search, hsimple, hrate, hasks, hform, ih]

/-- A block that no master rule matches in is won by what the policy makes of its hits. -/
theorem flush_under (policy : WinnerPolicy)
    (hnone : (arbitrate unit (Sample.sorted samples) sel.masters t).1 = .ok ⟨none, []⟩) :
    ((sel.under policy).flush unit samples t).winners =
      (sel.ordinaryHits unit (Sample.sorted samples)
        (arbitrate unit (Sample.sorted samples) sel.masters t).2).map policy.winners := by
  have hsame (buffer : List Sample) (u : Timers) :
      (sel.under policy).ordinaryHits unit buffer u = sel.ordinaryHits unit buffer u := by
    unfold ordinaryHits
    rw [search_under]
  by_cases hne : samples = []
  · subst samples
    have hempty : Sample.sorted [] = [] := Sample.sorted_of_ordered .nil
    rw [hempty]
    simp [flush, ordinaryHits, withRelated, search, Except.map, winners_nil]
  · have hnone' : (arbitrate unit (Sample.sorted samples) (sel.under policy).masters t).1 =
        .ok ⟨none, []⟩ := hnone
    rw [flush_of_arbitrate hne hnone']
    dsimp only [latestBy, Option.or]
    rw [winners_of_ordinaryHits, hsame]
    rfl

/-- Where no master rule matches, both policies go by the same hits, those of the samples in order of
time, a rate rule's behind a simple rule's. The policy for each tag gives the last hit of each tag in
order of time; the policy for one gives the last hit. That is among the others, none of which is later;
and neither gives anything unless there are hits. Where a sample asks for past readings that cannot be
put in form there are no hits to go by, and both fail for that. -/
theorem policies_agree
    (hnone : (arbitrate unit (Sample.sorted samples) sel.masters t).1 = .ok ⟨none, []⟩) :
    let hits := sel.ordinaryHits unit (Sample.sorted samples)
      (arbitrate unit (Sample.sorted samples) sel.masters t).2
    let single := ((sel.under .single).flush unit samples t).winners
    let perTag := ((sel.under .perTag).flush unit samples t).winners
    (∀ e, hits = .error e ↔
      (∃ s ∈ samples, sel.asksHistory s = true) ∧ sel.historyOf unit = .error e) ∧
    (∀ e, hits = .error e → single = .error e ∧ perTag = .error e) ∧
    ∀ cs, hits = .ok cs →
      (∃ found, cs = found.flatten ∧ List.Forall₂ sel.Gives (Sample.sorted samples) found) ∧
      single = .ok cs.getLast?.toList ∧
      ∃ ws, perTag = .ok ws ∧
        (ws.map (·.tag)).Nodup ∧ (∀ tag, tag ∈ ws.map (·.tag) ↔ tag ∈ cs.map (·.tag)) ∧
        (∀ w, w ∈ ws ↔ (ofTag cs w.tag).getLast? = some w) ∧
        (ws.Pairwise fun a b => a.time ≤ b.time) ∧
        (∀ c, cs.getLast? = some c → c ∈ ws ∧ ∀ w ∈ ws, w.time ≤ c.time) ∧
        (ws = [] ↔ cs.getLast?.toList = []) := by
  intro hits single perTag
  have hsingle : single = hits.map WinnerPolicy.single.winners := flush_under .single hnone
  have hperTag : perTag = hits.map WinnerPolicy.perTag.winners := flush_under .perTag hnone
  refine ⟨?_, ?_, ?_⟩
  · intro e
    simp only [hits, ordinaryHits_error_iff, Sample.mem_sorted]
  · intro e he
    rw [hsingle, hperTag, he]
    exact ⟨rfl, rfl⟩
  · intro cs hcs
    obtain ⟨found, hfound, hturn⟩ := ordinaryHits_in_turn hcs
    have hordered : cs.Pairwise fun a b => a.time ≤ b.time := by
      rw [hfound]
      exact Gives.ordered hturn (Sample.ordered_sorted samples)
    obtain ⟨hnodup, hmem⟩ := lastPerTag_spec hordered
    have htags (tag : String) := @mem_tags_lastPerTag cs hordered tag
    refine ⟨⟨found, hfound, hturn⟩, ?_, lastPerTag cs, ?_, hnodup, htags, hmem,
      ordered_lastPerTag cs, fun c hc => last_mem_lastPerTag hordered hc,
      lastPerTag_eq_nil_iff hordered⟩
    · rw [hsingle, hcs, ← latestBy_of_ordered hordered]
      rfl
    · rw [hperTag, hcs]
      rfl

/-- A voltage of five is a fault, and so is one that is often low; and a lamp that is on. -/
def voltageTwice : Selector :=
  ⟨[powerLoss], [.reads "Tag3" 5 0, .reads "Tag1" 1 0], [.lowVoltage], .single,
    some fun _ => [.reading "Tag3" 5 1500], twoDays⟩

/-- The voltage is hit twice at one reading, and the lamp behind it: the rate rule wins the voltage, the
lamp wins where there is one winner. -/
theorem lamp_and_voltage_won :
    let readings : List Sample := [.reading "Tag3" 5 5, .reading "Tag1" 1 10]
    ∃ cs ws, voltageTwice.ordinaryHits "101" readings (.empty true) = .ok cs ∧
      cs.map (fun c => (c.tag, c.stats.isSome)) = [("Tag3", false), ("Tag3", true), ("Tag1", false)] ∧
      ((voltageTwice.under .single).flush "101" readings (.empty true)).winners =
        .ok cs.getLast?.toList ∧
      ((voltageTwice.under .perTag).flush "101" readings (.empty true)).winners = .ok ws ∧
      ∀ w, w ∈ ws ↔ (ofTag cs w.tag).getLast? = some w := by
  intro readings
  have hsorted : Sample.sorted readings = readings := Sample.sorted_of_ordered (by decide)
  have hfound : (voltageTwice.ordinaryHits "101" readings (.empty true)).toOption.map
      (·.map fun c => (c.tag, c.stats.isSome)) =
        some [("Tag3", false), ("Tag3", true), ("Tag1", false)] := by decide +kernel
  obtain ⟨cs, hcs, htags⟩ := ok_of_toOption hfound
  -- the master rule looks at none of the readings
  have hunseen : ∀ s ∈ readings, powerLoss.concerns s = false := by decide +kernel
  have hnone : arbitrate "101" readings [powerLoss] (.empty true) = (.ok ⟨none, []⟩, .empty true) := by
    have hall := @arbitrateFrom_filter (fun _ => false) [powerLoss] readings
      (fun r hr s hs _ => by rw [List.mem_singleton.mp hr]; exact hunseen s hs) "101" [] (.empty true)
    have hkey : powerLoss.timerKey "101" = .ok ⟨"101", "Tag16", "0"⟩ := by decide +kernel
    have hinstant : powerLoss.gated = false := by decide +kernel
    rw [arbitrate, ← hall]
    simp [arbitrateFrom, MasterRule.verdict, hkey, hinstant, ActiveRun.find, ActiveRun.follow, Sample.sorted]
  have hall := (@policies_agree voltageTwice "101" readings (.empty true)
    (by rw [hsorted]; exact congrArg Prod.fst hnone)).2.2 cs
  rw [hsorted] at hall
  have hmasters : voltageTwice.masters = [powerLoss] := rfl
  rw [hmasters, hnone] at hall
  obtain ⟨-, hsingle, ws, hperTag, -, -, hmem, -⟩ := hall hcs
  exact ⟨cs, ws, hcs, htags, hsingle, hperTag, hmem⟩

end Selector

end FaultDesk
