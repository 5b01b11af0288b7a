import FaultDesk.Proofs.Rate.Window
import FaultDesk.Proofs.Source.KeptValues

/-!
The evidence of a rate rule: the values of its tag since some instant. Where all past readings are of
stored values, the column that they are put in changes no comparison, and every comparison is answered
or none is; so the share depends on the evidence alone, in whatever order it comes and whatever other
readings there are.
-/

namespace FaultDesk

/-! ## Columns of stored values -/

namespace ColumnKind

variable {k : ColumnKind} {v : Datum} {values : List Datum}

theorem addWhole_finite {n : Int} {d : Double} (h : ∀ negative, d ≠ .infinite negative) :
    ∃ found, k.addWhole n d = .ok found := by
  unfold addWhole
  split
  next negative => exact absurd rfl (h negative)
  next =>
    dsimp only
    split
    next => exact ⟨_, rfl⟩
    next => exact ⟨_, rfl⟩

theorem add_readable (h : v.Readable) : ∃ found, k.add v = .ok found := by
  cases v with
  | int n => exact addWhole_finite fun negative hinfinite => h .wholeTooLarge (.whole hinfinite)
  | _ => exact ⟨_, rfl⟩

theorem ofValues_readable (h : ∀ v ∈ values, v.Readable) : ∃ found, ofValues k values = .ok found := by
  induction values generalizing k with
  | nil => exact ⟨some k, rfl⟩
  | cons v rest ih =>
    obtain ⟨hv, hrest⟩ := List.forall_mem_cons.mp h
    obtain ⟨found, hfound⟩ := @add_readable k v hv
    unfold ofValues
    rw [hfound]
    cases found with
    | none => exact ⟨none, rfl⟩
    | some k' => exact ih hrest

end ColumnKind

theorem tabulated_readable {values : List Datum} (h : ∀ v ∈ values, v.Readable) :
    ∃ cells, tabulated values = .ok cells := by
  obtain ⟨found, hfound⟩ := @ColumnKind.ofValues_readable .start values h
  unfold tabulated
  rw [hfound]
  cases found <;> exact ⟨_, rfl⟩

/-- Readings of stored values can always be put in form. -/
theorem History.ofSamples_stored {past : List Sample} (h : ∀ p ∈ past, p.value.Stored) :
    ∃ form, History.ofSamples past = .ok form := by
  have hreadable : ∀ v ∈ past.map (·.value), v.Readable := by
    intro v hv
    obtain ⟨p, hp, rfl⟩ := List.mem_map.mp hv
    exact (h p hp).readable
  obtain ⟨cells, hcells⟩ := tabulated_readable hreadable
  unfold ofSamples
  rw [hcells]
  exact ⟨_, rfl⟩

/-! ## Comparing stored values -/

namespace Rule

variable {r : Rule} {v cell : Datum} {values values' : List Datum}

/-- Of what a column makes of values only the nulls compare otherwise. -/
theorem holdsFor_cell_of_ne_null (hnull : v ≠ .null) (hcell : v.CellOf cell) :
    r.holdsFor cell = r.holdsFor v := by
  rcases hcell with rfl | ⟨rfl | ⟨d, rfl⟩ | ⟨n, rfl, hfinite⟩, rfl⟩
  · rfl
  · exact absurd rfl hnull
  · rfl
  · exact holdsFor_nearest hfinite

theorem not_unwritable_threshold (x : Threshold) : ¬ x.datum.Unwritable := by
  rintro ⟨hnot, hlong⟩
  cases x with
  | whole n => exact hnot n rfl
  | real d => cases hlong
  | text s => cases hlong

/-- A rule answers for all stored values, or fails for all of them in the same way. -/
theorem answers_stored (r : Rule) :
    (∀ v : Datum, v.Stored → ∃ b, r.holdsFor v = .ok b) ∨
      ∃ e, ∀ v : Datum, v.Stored → r.holdsFor v = .error e := by
  by_cases hreadable : r.threshold.datum.Readable
  · refine Or.inl fun v hv => ?_
    cases hholds : r.holdsFor v with
    | ok b => exact ⟨b, rfl⟩
    | error e =>
      exfalso
      cases Condition.eval_error_iff.mp hholds with
      | actual hunreadable => exact hv.readable e hunreadable
      | threshold _ hunreadable => exact hreadable e hunreadable
      | texts _ _ _ hunwritable =>
        exact hunwritable.elim hv.not_unwritable (not_unwritable_threshold r.threshold)
  · simp only [Datum.Readable, not_forall, not_not] at hreadable
    obtain ⟨e, hunreadable⟩ := hreadable
    exact Or.inr ⟨e, fun v hv => Condition.eval_error_iff.mpr (.threshold hv.readable hunreadable)⟩

theorem countHolding_map {α : Type} {items : List α} {f g : α → Datum}
    (h : ∀ x ∈ items, r.holdsFor (f x) = r.holdsFor (g x)) :
    countHolding r (items.map f) = countHolding r (items.map g) := by
  induction items with
  | nil => rfl
  | cons x rest ih =>
    obtain ⟨hx, hrest⟩ := List.forall_mem_cons.mp h
    simp only [List.map_cons, countHolding, hx, ih hrest]

/-- How many of some stored values satisfy a condition does not depend on their order. -/
theorem countHolding_perm (h : ∀ v ∈ values, v.Stored) (hperm : values.Perm values') :
    countHolding r values = countHolding r values' := by
  have h' : ∀ v ∈ values', v.Stored := fun v hv => h v (hperm.mem_iff.mpr hv)
  rcases r.answers_stored with hanswers | ⟨e, hfails⟩
  · have hcount := countHolding_eq_ok_iff.mpr ⟨fun v hv => hanswers v (h v hv), rfl⟩
    have hcount' := countHolding_eq_ok_iff.mpr ⟨fun v hv => hanswers v (h' v hv), rfl⟩
    rw [hcount, hcount', hperm.countP_eq]
  · have hfirst {v : Datum} {rest : List Datum} (hv : v.Stored) :
        countHolding r (v :: rest) = .error e := by
      unfold countHolding
      rw [hfails v hv]
      rfl
    cases values with
    | nil => rw [List.nil_perm.mp hperm]
    | cons v rest =>
      cases values' with
      | nil => cases List.perm_nil.mp hperm
      | cons w others => rw [hfirst (h v List.mem_cons_self), hfirst (h' w List.mem_cons_self)]

end Rule

/-! ## Evidence -/

namespace RateRule

variable {r : RateRule} {past past' : List Sample} {h h' : History} {since now : Instant}

/-- The readings of a rule's tag since some instant. -/
def evidence (r : RateRule) (since : Instant) (past : List Sample) : List Sample :=
  past.filter fun p => p.tag == r.tag && decide (since ≤ p.time)

/-- The stats of stored readings are those of the evidence as it was read. -/
theorem stats?_of_evidence (hform : History.ofSamples past = .ok h)
    (hstored : ∀ p ∈ past, p.value.Stored) :
    r.stats? h since =
      if (r.evidence since past).isEmpty then .ok none
      else (countHolding r.toRule ((r.evidence since past).map (·.value))).map fun n =>
        some (.ofCounts n (r.evidence since past).length) := by
  obtain ⟨cell, -, hcell, hwindow⟩ := History.of_ofSamples hform
  have hcount : countHolding r.toRule ((r.evidence since past).map fun p => cell p.value) =
      countHolding r.toRule ((r.evidence since past).map (·.value)) := by
    refine Rule.countHolding_map fun p hp => ?_
    have hmem := (List.mem_filter.mp hp).1
    exact Rule.holdsFor_cell_of_ne_null (hstored p hmem).ne_null (hcell p hmem)
  have hvalues : h.window r.tag since = (r.evidence since past).map fun p => cell p.value :=
    hwindow r.tag since
  unfold stats?
  dsimp only
  rw [hvalues, hcount, List.isEmpty_map, List.length_map]
  split
  next => rfl
  next => cases countHolding r.toRule ((r.evidence since past).map (·.value)) <;> rfl

/-- The same evidence gives the same stats, whatever else has been read. -/
theorem stats?_congr (hform : History.ofSamples past = .ok h) (hform' : History.ofSamples past' = .ok h')
    (hstored : ∀ p ∈ past, p.value.Stored) (hstored' : ∀ p ∈ past', p.value.Stored)
    (hsame : (r.evidence since past).Perm (r.evidence since past')) :
    r.stats? h since = r.stats? h' since := by
  have hempty : (r.evidence since past).isEmpty = (r.evidence since past').isEmpty := by
    rw [Bool.eq_iff_iff, List.isEmpty_iff_length_eq_zero, List.isEmpty_iff_length_eq_zero,
      hsame.length_eq]
  have hvalues : ∀ v ∈ (r.evidence since past).map (·.value), v.Stored := by
    intro v hv
    obtain ⟨p, hp, rfl⟩ := List.mem_map.mp hv
    exact hstored p (List.mem_filter.mp hp).1
  rw [stats?_of_evidence hform hstored, stats?_of_evidence hform' hstored', hempty, hsame.length_eq,
    Rule.countHolding_perm hvalues (hsame.map _)]

theorem share_congr
    (hsame : ∀ since, r.windowStart now = .ok since → r.stats? h since = r.stats? h' since) :
    r.share h now = r.share h' now := by
  unfold share
  cases hsince : r.windowStart now with
  | error e => rfl
  | ok since =>
    simp only [bind, Except.bind]
    rw [hsame since hsince]

end RateRule

/-- Rules whose shares are the same in two histories find the same. -/
theorem rateFrom_congr {rules : List RateRule} {s : Sample} {related : List Sample} {h h' : History}
    {now : Instant} {t : Timers} (hsame : ∀ r ∈ rules, r.share h now = r.share h' now) :
    rateFrom s related h now rules t = rateFrom s related h' now rules t := by
  induction rules generalizing t with
  | nil => rfl
  | cons r rest ih =>
    obtain ⟨hr, hrest⟩ := List.forall_mem_cons.mp hsame
    have hmore {u : Timers} := @ih u hrest
    simp only [rateFrom, RateRule.verdict, hr, hmore]

end FaultDesk
