import FaultDesk.Proofs.Selection.OfInterest

/-!
What the ordinary rules hit in a block. A sample gives at most two hits, one of a simple rule and behind
it one of a rate rule, and the hits of a block are those of its samples in turn.
-/

namespace FaultDesk

/-! ## Samples in order of time -/

section Ordered

variable {samples : List Sample}

/-- Nothing in order of time is later than the last. -/
theorem le_of_getLast? {α : Type} {time : α → Instant} {items : List α} {last : α}
    (hordered : items.Pairwise fun a b => time a ≤ time b) (hlast : items.getLast? = some last) :
    ∀ x ∈ items, time x ≤ time last := by
  obtain ⟨front, rfl⟩ := List.getLast?_eq_some_iff.mp hlast
  obtain ⟨-, -, hle⟩ := List.pairwise_append.mp hordered
  intro x hx
  rcases List.mem_append.mp hx with hx | hx
  · exact hle x hx last (List.mem_singleton_self last)
  · rw [List.mem_singleton.mp hx]

/-- Samples in order of time are those up to an instant and behind them the later ones. -/
theorem Sample.split_at (hordered : samples.Pairwise fun a b => a.time ≤ b.time) (i : Instant) :
    samples = samples.filter (fun s => decide (s.time ≤ i)) ++
      samples.filter fun s => decide (i < s.time) := by
  induction samples with
  | nil => rfl
  | cons s rest ih =>
    obtain ⟨hfirst, hrest⟩ := List.pairwise_cons.mp hordered
    by_cases hs : s.time ≤ i
    · have hnot : ¬ i < s.time := Int.not_lt.mpr hs
      simpa [hs, hnot] using ih hrest
    · have hlt : i < s.time := Int.lt_of_not_ge hs
      have hlater : ∀ q ∈ rest, i < q.time := fun q hq => Int.lt_of_lt_of_le hlt (hfirst q hq)
      have hnone : rest.filter (fun q => decide (q.time ≤ i)) = [] :=
        List.filter_eq_nil_iff.mpr fun q hq => by simpa using hlater q hq
      have hall : rest.filter (fun q => decide (i < q.time)) = rest :=
        List.filter_eq_self.mpr fun q hq => by simpa using hlater q hq
      simp [hs, hlt, hnone, hall]

/-- The samples related to those in front do not change with later ones, and those behind see all of
the front. -/
theorem withRelated_append (seen front back : List Sample)
    (hlater : ∀ s ∈ front, ∀ q ∈ back, s.time < q.time) :
    withRelated seen (front ++ back) =
      withRelated seen front ++ withRelated (front.reverse ++ seen) back := by
  induction front generalizing seen with
  | nil => rfl
  | cons s rest ih =>
    have hnone : back.filter (fun q => decide (q.time ≤ s.time)) = [] := by
      refine List.filter_eq_nil_iff.mpr fun q hq => ?_
      have hlt := hlater s List.mem_cons_self q hq
      simpa using hlt
    have hrest := ih (s :: seen) fun x hx => hlater x (List.mem_cons_of_mem s hx)
    simp only [List.cons_append, withRelated, List.filter_append, hnone, List.append_nil, hrest,
      List.reverse_cons, List.append_assoc, List.nil_append]

end Ordered

namespace Selector

variable {sel : Selector} {unit : String} {t : Timers} {e : Failure}

/-! ## One search behind another -/

/-- A search goes on where the one over the samples in front has left off, unless that has failed. -/
theorem search_append (front back : List (Sample × List Sample)) (st : Search) :
    sel.search unit (front ++ back) st =
      match sel.search unit front st with
      | (some e, u) => (some e, u)
      | (none, u) => sel.search unit back u := by
  induction front generalizing st with
  | nil => rfl
  | cons p rest ih =>
    obtain ⟨s, related⟩ := p
    simp only [List.cons_append, search]
    split
    next =>
      split
      next => exact ih _
      next =>
        split
        next => rfl
        next => exact ih _
    next => exact ih _

/-! ## The hits of one sample -/

/-- What a sample can give: what a simple rule has found in it, and behind that what a rate rule has. -/
def Gives (sel : Selector) (s : Sample) (hits : List Candidate) : Prop :=
  ∃ simple rate : Option Candidate, hits = simple.toList ++ rate.toList ∧
    (∀ c, simple = some c → ∃ r ∈ sel.simple, r.watches s = true ∧ c = .ofSample s (.simple r) none) ∧
    ∀ c, rate = some c →
      ∃ r ∈ sel.rate, r.watches s = true ∧ ∃ stats, c = .ofSample s (.rate r) (some stats)

theorem gives_nil (s : Sample) : sel.Gives s [] := ⟨none, none, rfl, by simp, by simp⟩

/-- Hits are of their sample's tag and time. -/
theorem Gives.of_mem {s : Sample} {hits : List Candidate} (h : sel.Gives s hits) {c : Candidate}
    (hc : c ∈ hits) : c.tag = s.tag ∧ c.time = s.time := by
  obtain ⟨simple, rate, rfl, hsimple, hrate⟩ := h
  rcases List.mem_append.mp hc with hc | hc
  · obtain ⟨r, -, hw, rfl⟩ := hsimple c (Option.mem_toList.mp hc)
    simp only [Rule.watches, Bool.and_eq_true, beq_iff_eq] at hw
    exact ⟨hw.1.2, rfl⟩
  · obtain ⟨r, -, hw, stats, rfl⟩ := hrate c (Option.mem_toList.mp hc)
    simp only [Rule.watches, Bool.and_eq_true, beq_iff_eq] at hw
    exact ⟨hw.1.2, rfl⟩

/-- What samples give in turn is of their times. -/
theorem Gives.times {samples : List Sample} {found : List (List Candidate)}
    (h : List.Forall₂ sel.Gives samples found) {c : Candidate} (hc : c ∈ found.flatten) :
    ∃ s ∈ samples, c.time = s.time := by
  induction h with
  | nil => cases hc
  | @cons s hits rest found hgives hrest ih =>
    rw [List.flatten_cons] at hc
    rcases List.mem_append.mp hc with hc | hc
    · exact ⟨s, List.mem_cons_self, (hgives.of_mem hc).2⟩
    · obtain ⟨q, hq, htime⟩ := ih hc
      exact ⟨q, List.mem_cons_of_mem s hq, htime⟩

/-- What samples in order of time give in turn is in order of time. -/
theorem Gives.ordered {samples : List Sample} {found : List (List Candidate)}
    (h : List.Forall₂ sel.Gives samples found)
    (hordered : samples.Pairwise fun a b => a.time ≤ b.time) :
    found.flatten.Pairwise fun a b => a.time ≤ b.time := by
  induction h with
  | nil => exact .nil
  | @cons s hits rest found hgives hrest ih =>
    obtain ⟨hfirst, hothers⟩ := List.pairwise_cons.mp hordered
    rw [List.flatten_cons]
    refine List.pairwise_append.mpr ⟨?_, ih hothers, ?_⟩
    · refine List.pairwise_of_forall_mem_list fun a ha b hb => ?_
      rw [(hgives.of_mem ha).2, (hgives.of_mem hb).2]
    · intro a ha b hb
      obtain ⟨q, hq, htime⟩ := Gives.times hrest hb
      rw [(hgives.of_mem ha).2, htime]
      exact hfirst q hq

theorem found_trySimple (s : Sample) (related : List Sample) (st : Search) :
    ∃ simple : Option Candidate, (sel.trySimple s related st).hits = st.hits ++ simple.toList ∧
      ∀ c, simple = some c →
        ∃ r ∈ sel.simple, r.watches s = true ∧ c = .ofSample s (.simple r) none := by
  unfold trySimple
  split
  next => exact ⟨none, by simp, by simp⟩
  next p r u hm =>
    have hmatch : (firstMatch s related sel.simple st.timers).1 = some (p, r) := by rw [hm]
    obtain ⟨hr, hw, -, -⟩ := firstMatch_some hmatch
    refine ⟨some (.ofSample s (.simple r) none), rfl, ?_⟩
    intro c hc
    exact ⟨r, List.mem_of_getElem? hr, hw, (Option.some.inj hc).symm⟩

theorem found_tryRate (s : Sample) (related : List Sample) (h : History) (st : Search) :
    ∃ rate : Option Candidate, (sel.tryRate s related h st).hits = st.hits ++ rate.toList ∧
      ∀ c, rate = some c →
        ∃ r ∈ sel.rate, r.watches s = true ∧ ∃ stats, c = .ofSample s (.rate r) (some stats) := by
  unfold tryRate
  split
  next => exact ⟨none, by simp, by simp⟩
  next c u hc =>
    obtain ⟨r, hr, stats, -, -, rfl⟩ := of_rateFrom (congrArg Prod.fst hc)
    obtain ⟨hmem, hw⟩ := List.mem_filter.mp hr
    refine ⟨some (.ofSample s (.rate r) (some stats)), rfl, ?_⟩
    intro c' hc'
    exact ⟨r, hmem, hw, stats, (Option.some.inj hc').symm⟩

/-! ## The hits of a block -/

/-- The hits of a search are those of its samples in turn. -/
theorem hits_in_turn (pairs : List (Sample × List Sample)) (st : Search) :
    ∃ found : List (List Candidate), (sel.search unit pairs st).2.hits = st.hits ++ found.flatten ∧
      List.Forall₂ sel.Gives (pairs.map (·.1)) found := by
  induction pairs generalizing st with
  | nil => exact ⟨[], by simp [search], .nil⟩
  | cons p rest ih =>
    obtain ⟨s, related⟩ := p
    obtain ⟨simple, hhits, hsimple⟩ := @found_trySimple sel s related st
    have hrate (h : History) : ∃ found : List (List Candidate),
        (sel.search unit rest (sel.tryRate s related h (sel.trySimple s related st))).2.hits =
          st.hits ++ found.flatten ∧
        List.Forall₂ sel.Gives (s :: rest.map (·.1)) found := by
      obtain ⟨rate, hhits', hrate⟩ := @found_tryRate sel s related h (sel.trySimple s related st)
      obtain ⟨found, hmore, hturn⟩ := ih (sel.tryRate s related h (sel.trySimple s related st))
      refine ⟨(simple.toList ++ rate.toList) :: found, ?_,
        .cons ⟨simple, rate, rfl, hsimple, hrate⟩ hturn⟩
      rw [hmore, hhits', hhits, List.flatten_cons, List.append_assoc, List.append_assoc,
        List.append_assoc]
    have hgives : sel.Gives s simple.toList := ⟨simple, none, by simp, hsimple, by simp⟩
    simp only [search]
    split
    next =>
      split
      next h _ => exact hrate h
      next =>
        split
        next =>
          -- nothing is judged behind a failure
          refine ⟨simple.toList :: rest.map fun _ => [], ?_, .cons hgives ?_⟩
          · simpa using hhits
          · rw [List.forall₂_map_left_iff, List.forall₂_map_right_iff]
            exact List.forall₂_same.mpr fun p _ => gives_nil p.1
        next h _ => exact hrate h
    next =>
      obtain ⟨found, hmore, hturn⟩ := ih (sel.trySimple s related st)
      refine ⟨simple.toList :: found, ?_, .cons hgives hturn⟩
      rw [hmore, hhits, List.flatten_cons, List.append_assoc]

/-- All that the ordinary rules hit in a block, in the order in which they do. -/
def ordinaryHits (sel : Selector) (unit : String) (samples : List Sample) (t : Timers) :
    Except Failure (List Candidate) :=
  match sel.search unit (withRelated [] samples) ⟨t, none, []⟩ with
  | (some e, _) => .error e
  | (none, st) => .ok st.hits

variable {samples : List Sample} {hits : List Candidate}

theorem winners_of_ordinaryHits :
    (sel.flushOrdinary unit samples t).winners =
      (sel.ordinaryHits unit samples t).map sel.policy.winners := by
  unfold flushOrdinary ordinaryHits
  generalize sel.search unit (withRelated [] samples) ⟨t, none, []⟩ = out
  obtain ⟨failure, st⟩ := out
  cases failure <;> rfl

theorem ordinaryHits_error_iff :
    sel.ordinaryHits unit samples t = .error e ↔
      (∃ s ∈ samples, sel.asksHistory s = true) ∧ sel.historyOf unit = .error e := by
  rw [← flushOrdinary_error_iff, winners_of_ordinaryHits]
  cases sel.ordinaryHits unit samples t <;> simp [Except.map]

theorem hits_of_ordinaryHits (h : sel.ordinaryHits unit samples t = .ok hits) :
    (sel.search unit (withRelated [] samples) ⟨t, none, []⟩).2.hits = hits := by
  unfold ordinaryHits at h
  split at h
  next => cases h
  next st hst =>
    rw [hst]
    exact Except.ok.inj h

theorem ordinaryHits_in_turn (h : sel.ordinaryHits unit samples t = .ok hits) :
    ∃ found : List (List Candidate), hits = found.flatten ∧ List.Forall₂ sel.Gives samples found := by
  obtain ⟨found, hhits, hturn⟩ := @hits_in_turn sel unit (withRelated [] samples) ⟨t, none, []⟩
  rw [hits_of_ordinaryHits h] at hhits
  rw [map_fst_withRelated] at hturn
  exact ⟨found, hhits, hturn⟩

end Selector

end FaultDesk
