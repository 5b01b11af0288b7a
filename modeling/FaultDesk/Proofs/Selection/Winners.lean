import FaultDesk.Proofs.Selection.Precedence

/-!
Where the winners of a block come from: each of them is of the unit whose samples are judged, and
where one winner is wanted there is at most one.
-/

namespace FaultDesk

/-! ## Master rules -/

theorem MasterRule.sample_of_verdict {r : MasterRule} {unit : String} {samples : List Sample}
    {t : Timers} {m : MasterMatch} (h : (r.verdict unit samples t).1 = .ok (some m)) :
    m.sample ∈ samples := by
  cases hk : r.timerKey unit with
  | error e => simp [verdict, hk] at h
  | ok key =>
    cases hrun : ActiveRun.find r samples with
    | error e => simp [verdict, hk, hrun] at h
    | ok out =>
      cases out with
      | none => simp [verdict, hk, hrun] at h
      | some run =>
        obtain ⟨-, hlatest, -⟩ := ActiveRun.find_some hrun
        have hmem := (mem_trailing (List.mem_of_getLast? hlatest)).1
        simp only [verdict, hk, hrun] at h
        split at h
        next => cases h
        next => cases h
        next =>
          obtain rfl : ⟨r, run.latest⟩ = m := Option.some.inj (Except.ok.inj h)
          exact hmem

/-- Master rules match at samples of the unit. -/
theorem sample_of_arbitrateFrom {unit : String} {samples : List Sample} {rules : List MasterRule}
    {collected : List MasterMatch} {t : Timers} {a : Arbitration}
    (hcollected : ∀ m ∈ collected, m.sample ∈ samples)
    (h : (arbitrateFrom unit samples collected rules t).1 = .ok a) :
    ∀ m, a.blocking = some m ∨ m ∈ a.collected → m.sample ∈ samples := by
  induction rules generalizing collected t with
  | nil =>
    obtain rfl := Except.ok.inj h
    rintro m (hm | hm)
    · cases hm
    · exact hcollected m hm
  | cons r rest ih =>
    simp only [arbitrateFrom] at h
    split at h
    next =>
      split at h
      next => cases h
      next => exact ih hcollected h
      next m u hv =>
        have hm : m.sample ∈ samples := MasterRule.sample_of_verdict (congrArg Prod.fst hv)
        split at h
        next =>
          obtain rfl := Except.ok.inj h
          rintro m' (hm' | hm')
          · obtain rfl := Option.some.inj hm'
            exact hm
          · cases hm'
        next =>
          refine ih ?_ h
          intro m' hm'
          rcases List.mem_append.mp hm' with hm' | hm'
          · exact hcollected m' hm'
          · rw [List.mem_singleton.mp hm']
            exact hm
    next => exact ih hcollected h

/-! ## Ordinary rules -/

/-- What an ordinary rule has found in a sample. -/
def Candidate.FoundIn (c : Candidate) (s : Sample) : Prop :=
  (∃ r, r.holdsFor s.value = .ok true ∧ c = .ofSample s (.simple r) none) ∨
    ∃ r stats, c = .ofSample s (.rate r) (some stats)

theorem Candidate.FoundIn.unit {c : Candidate} {s : Sample} (h : c.FoundIn s) : c.unit = s.unit := by
  rcases h with ⟨r, -, rfl⟩ | ⟨r, stats, rfl⟩ <;> rfl

theorem found_of_rateFrom {s : Sample} {related : List Sample} {h : History} {now : Instant}
    {rules : List RateRule} {t : Timers} {c : Candidate}
    (hc : (rateFrom s related h now rules t).1 = some c) :
    ∃ r stats, c = .ofSample s (.rate r) (some stats) := by
  induction rules generalizing t with
  | nil => cases hc
  | cons r rest ih =>
    simp only [rateFrom] at hc
    split at hc
    next stats _ _ => exact ⟨r, stats, (Option.some.inj hc).symm⟩
    next => exact ih hc

theorem mem_withHit {best : List Candidate} {c d : Candidate} (h : d ∈ withHit best c) :
    d ∈ best ∨ d = c := by
  induction best with
  | nil => exact Or.inr (List.mem_singleton.mp h)
  | cons b rest ih =>
    simp only [withHit] at h
    split at h
    next =>
      split at h
      next => exact (List.mem_cons.mp h).symm.imp_left (List.mem_cons_of_mem b)
      next => exact Or.inl h
    next =>
      rcases List.mem_cons.mp h with rfl | h
      · exact Or.inl List.mem_cons_self
      · exact (ih h).imp_left (List.mem_cons_of_mem b)

theorem mem_foldl_withHit {hits best : List Candidate} {c : Candidate}
    (h : c ∈ hits.foldl withHit best) : c ∈ best ∨ c ∈ hits := by
  induction hits generalizing best with
  | nil => exact Or.inl h
  | cons d rest ih =>
    rcases ih h with h | h
    · rcases mem_withHit h with h | rfl
      · exact Or.inl h
      · exact Or.inr List.mem_cons_self
    · exact Or.inr (List.mem_cons_of_mem d h)

theorem WinnerPolicy.mem_of_winners {p : WinnerPolicy} {hits : List Candidate} {c : Candidate}
    (h : c ∈ p.winners hits) : c ∈ hits := by
  cases p with
  | single =>
    obtain ⟨before, after, hsplit, -, -⟩ := latestBy_eq_some (Option.mem_toList.mp h)
    rw [hsplit]
    simp
  | perTag =>
    have hmem : c ∈ hits.foldl withHit [] := List.mem_mergeSort.mp h
    exact (mem_foldl_withHit hmem).resolve_left List.not_mem_nil

theorem map_fst_withRelated (seen samples : List Sample) :
    (withRelated seen samples).map (·.1) = samples := by
  induction samples generalizing seen with
  | nil => rfl
  | cons s rest ih => rw [withRelated, List.map_cons, ih]

theorem mem_of_withRelated {seen samples : List Sample} {p : Sample × List Sample}
    (h : p ∈ withRelated seen samples) : p.1 ∈ samples := by
  rw [← map_fst_withRelated seen samples]
  exact List.mem_map_of_mem h

namespace Selector

variable {sel : Selector} {unit : String} {samples : List Sample} {t : Timers}

theorem hits_trySimple (s : Sample) (related : List Sample) (st : Search) :
    ∀ c ∈ (sel.trySimple s related st).hits, c ∈ st.hits ∨ c.FoundIn s := by
  intro c hc
  simp only [trySimple] at hc
  split at hc
  next => exact Or.inl hc
  next p r u hm =>
    rcases List.mem_append.mp hc with hc | hc
    · exact Or.inl hc
    · have hmatch : (firstMatch s related sel.simple st.timers).1 = some (p, r) := by rw [hm]
      have hverdict := congrArg Prod.fst (firstMatch_some hmatch).2.2.2
      exact Or.inr (Or.inl ⟨r, Rule.holdsFor_of_verdict_true hverdict, List.mem_singleton.mp hc⟩)

theorem hits_tryRate (s : Sample) (related : List Sample) (h : History) (st : Search) :
    ∀ c ∈ (sel.tryRate s related h st).hits, c ∈ st.hits ∨ c.FoundIn s := by
  intro c hc
  simp only [tryRate] at hc
  split at hc
  next => exact Or.inl hc
  next d u hd =>
    rcases List.mem_append.mp hc with hc | hc
    · exact Or.inl hc
    · rw [List.mem_singleton.mp hc]
      exact Or.inr (Or.inr (found_of_rateFrom (congrArg Prod.fst hd)))

/-- Whatever a search hits, an ordinary rule has found in one of its samples. -/
theorem found_of_search {pairs : List (Sample × List Sample)} {st : Search} :
    ∀ c ∈ (sel.search unit pairs st).2.hits, c ∈ st.hits ∨ ∃ p ∈ pairs, c.FoundIn p.1 := by
  induction pairs generalizing st with
  | nil => exact fun c hc => Or.inl hc
  | cons p rest ih =>
    obtain ⟨s, related⟩ := p
    have hsimple : ∀ c ∈ (sel.trySimple s related st).hits,
        c ∈ st.hits ∨ ∃ p ∈ (s, related) :: rest, c.FoundIn p.1 := by
      intro c hc
      refine (hits_trySimple s related st c hc).imp_right fun h => ?_
      exact ⟨_, List.mem_cons_self, h⟩
    have hrate (h : History) : ∀ c ∈ (sel.tryRate s related h (sel.trySimple s related st)).hits,
        c ∈ st.hits ∨ ∃ p ∈ (s, related) :: rest, c.FoundIn p.1 := by
      intro c hc
      rcases hits_tryRate s related h _ c hc with hc | hc
      · exact hsimple c hc
      · exact Or.inr ⟨_, List.mem_cons_self, hc⟩
    have hrest {st' : Search} (hst' : ∀ c ∈ st'.hits,
          c ∈ st.hits ∨ ∃ p ∈ (s, related) :: rest, c.FoundIn p.1) :
        ∀ c ∈ (sel.search unit rest st').2.hits,
          c ∈ st.hits ∨ ∃ p ∈ (s, related) :: rest, c.FoundIn p.1 := by
      intro c hc
      rcases ih c hc with hc | ⟨p, hp, hfound⟩
      · exact hst' c hc
      · exact Or.inr ⟨p, List.mem_cons_of_mem _ hp, hfound⟩
    simp only [search]
    split
    next =>
      split
      next h _ => exact hrest (hrate h)
      next =>
        split
        next => exact hsimple
        next h _ => exact hrest (hrate h)
    next => exact hrest hsimple

/-! ## Blocks -/

theorem winners_flushOrdinary {cs : List Candidate}
    (h : (sel.flushOrdinary unit samples t).winners = .ok cs) :
    cs = sel.policy.winners (sel.search unit (withRelated [] samples) ⟨t, none, []⟩).2.hits := by
  simp only [flushOrdinary] at h
  split at h
  next => cases h
  next st hst =>
    rw [hst]
    exact (Except.ok.inj h).symm

theorem flush_of_arbitrate_error {e : Failure} (hne : samples ≠ [])
    (h : (arbitrate unit (Sample.sorted samples) sel.masters t).1 = .error e) :
    (sel.flush unit samples t).winners = .error e := by
  have hpair : arbitrate unit (Sample.sorted samples) sel.masters t = (.error e, _) :=
    Prod.ext h rfl
  have hempty : samples.isEmpty = false := by simpa using hne
  simp only [flush, hempty, Bool.false_eq_true, ↓reduceIte]
  rw [hpair]

/-- What a block may win: nothing, the match of a master rule, or what the ordinary rules hit. -/
theorem flush_cases {cs : List Candidate} (h : (sel.flush unit samples t).winners = .ok cs) :
    cs = [] ∨ (∃ m : MasterMatch, m.sample ∈ samples ∧ cs = [m.candidate]) ∨
      ∃ u, (sel.flushOrdinary unit (Sample.sorted samples) u).winners = .ok cs := by
  by_cases hne : samples = []
  · subst samples
    exact Or.inl (Except.ok.inj h).symm
  · cases ha : (arbitrate unit (Sample.sorted samples) sel.masters t).1 with
    | error e =>
      rw [flush_of_arbitrate_error hne ha] at h
      cases h
    | ok a =>
      rw [flush_of_arbitrate hne ha] at h
      split at h
      next m hm =>
        refine Or.inr (Or.inl ⟨m, ?_, (Except.ok.inj h).symm⟩)
        refine Sample.mem_sorted.mp (sample_of_arbitrateFrom (by simp) ha m ?_)
        rcases Option.or_eq_some_iff.mp hm with hm | ⟨-, hm⟩
        · exact Or.inl hm
        · obtain ⟨before, after, hsplit, -, -⟩ := latestBy_eq_some hm
          refine Or.inr ?_
          rw [hsplit]
          simp
      next => exact Or.inr (Or.inr ⟨_, h⟩)

/-- A winner of a block is the match of a master rule at one of its samples, or an ordinary rule has
found it in one of them. -/
theorem found_of_flush {cs : List Candidate} (h : (sel.flush unit samples t).winners = .ok cs)
    {c : Candidate} (hc : c ∈ cs) :
    (∃ m : MasterMatch, m.sample ∈ samples ∧ c = m.candidate) ∨ ∃ s ∈ samples, c.FoundIn s := by
  rcases flush_cases h with rfl | ⟨m, hm, rfl⟩ | ⟨u, hu⟩
  · cases hc
  · exact Or.inl ⟨m, hm, List.mem_singleton.mp hc⟩
  · rw [winners_flushOrdinary hu] at hc
    rcases found_of_search c (WinnerPolicy.mem_of_winners hc) with hc | ⟨p, hp, hfound⟩
    · cases hc
    · exact Or.inr ⟨p.1, Sample.mem_sorted.mp (mem_of_withRelated hp), hfound⟩

theorem unit_of_flush {cs : List Candidate} (hunit : ∀ s ∈ samples, s.unit = unit)
    (h : (sel.flush unit samples t).winners = .ok cs) : ∀ c ∈ cs, c.unit = unit := by
  intro c hc
  rcases found_of_flush h hc with ⟨m, hm, rfl⟩ | ⟨s, hs, hfound⟩
  · exact hunit _ hm
  · exact hfound.unit.trans (hunit s hs)

theorem length_flush_single {cs : List Candidate} (hpolicy : sel.policy = .single)
    (h : (sel.flush unit samples t).winners = .ok cs) : cs.length ≤ 1 := by
  rcases flush_cases h with rfl | ⟨m, hm, rfl⟩ | ⟨u, hu⟩
  · exact Nat.zero_le 1
  · exact Nat.le_refl 1
  · rw [winners_flushOrdinary hu, hpolicy]
    exact Option.length_toList_le

/-! ## Block after block -/

theorem giveOut_subset {given : List (String × String)} {wanted : Option Nat} {cs : List Candidate} :
    ∀ c ∈ (giveOut given wanted cs).1, c ∈ cs := by
  induction cs generalizing given wanted with
  | nil => simp [giveOut]
  | cons c rest ih =>
    intro c' hc'
    simp only [giveOut] at hc'
    split at hc'
    next => cases hc'
    next =>
      split at hc'
      next => exact List.mem_cons_of_mem c (ih c' hc')
      next =>
        rcases List.mem_cons.mp hc' with rfl | hc'
        · exact List.mem_cons_self
        · exact List.mem_cons_of_mem c (ih c' hc')

/-- A winner of a selection is a winner of one of its blocks. -/
theorem flush_of_mem_selectFrom {begun : Bool} {given : List (String × String)}
    {wanted : Option Nat} {bs : List Block} {c : Candidate}
    (h : .winner c ∈ (sel.selectFrom begun given wanted bs t).1) :
    ∃ b ∈ bs, ∃ u cs, (sel.flush b.unit b.samples u).winners = .ok cs ∧ c ∈ cs := by
  induction bs generalizing begun given wanted t with
  | nil => cases h
  | cons b rest ih =>
    have hstart : .winner c ∉ (readsFor begun b rest.head?).map SelectionEvent.read ++
        .flush b.unit ::
          (if (sel.flush b.unit b.samples t).asked then [.history b.unit] else []) := by
      split <;> simp
    simp only [selectFrom] at h
    cases hcs : (sel.flush b.unit b.samples t).winners with
    | error e =>
      simp only [hcs] at h
      rcases List.mem_append.mp h with h | h
      · exact absurd h hstart
      · cases List.mem_singleton.mp h
    | ok cs =>
      simp only [hcs] at h
      have hgiven (h : .winner c ∈ (giveOut given wanted cs).1.map SelectionEvent.winner) :
          ∃ b' ∈ b :: rest, ∃ u cs, (sel.flush b'.unit b'.samples u).winners = .ok cs ∧ c ∈ cs := by
        obtain ⟨c', hc', heq⟩ := List.mem_map.mp h
        obtain rfl := SelectionEvent.winner.inj heq
        exact ⟨b, List.mem_cons_self, t, cs, hcs, giveOut_subset c' hc'⟩
      split at h
      next =>
        rcases List.mem_append.mp h with h | h
        · exact absurd h hstart
        · exact hgiven h
      next =>
        rcases List.mem_append.mp h with h | h
        · rcases List.mem_append.mp h with h | h
          · exact absurd h hstart
          · exact hgiven h
        · obtain ⟨b', hb', hrest⟩ := ih h
          exact ⟨b', List.mem_cons_of_mem b hb', hrest⟩

end Selector

end FaultDesk
