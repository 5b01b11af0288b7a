import FaultDesk.Proofs.Condition.KeyText
import FaultDesk.Proofs.Rate.SoleRate

/-!
What the share of a rate rule is a share of. The readings of its tag count from the start of the window
on, those behind its end with the others. They are put in a column first, where whole numbers and nulls
may become binary64 numbers; a comparison comes out as it would without the column, unless the rule asks
for a null or for NaN by its text.
-/

namespace FaultDesk

/-! ## Columns -/

/-- A value that can stand in a column of binary64 numbers. -/
def Datum.FitsFloats (v : Datum) : Prop :=
  v = .null ∨ (∃ d, v = .float d) ∨ ∃ n, v = .int n ∧ ∀ negative, Double.ofInt n ≠ .infinite negative

namespace ColumnKind

variable {k k' : ColumnKind} {v : Datum} {vs : List Datum}

theorem of_addWhole {n : Int} {d : Double} (h : k.addWhole n d = .ok (some k')) :
    (∀ negative, d ≠ .infinite negative) ∧ (k.hasTruth = true → k'.hasTruth = true) := by
  unfold addWhole at h
  split at h
  next => cases h
  next hfinite =>
    refine ⟨hfinite, fun htruth => ?_⟩
    dsimp only at h
    split at h
    next =>
      obtain rfl := Option.some.inj (Except.ok.inj h)
      exact htruth
    next =>
      have hkind := Except.ok.inj h
      split at hkind
      next => cases hkind
      next =>
        obtain rfl := Option.some.inj hkind
        exact htruth

theorem of_add (h : k.add v = .ok (some k')) :
    (k'.hasTruth = false → v.FitsFloats) ∧ (k.hasTruth = true → k'.hasTruth = true) := by
  cases v with
  | null =>
    obtain rfl := Option.some.inj (Except.ok.inj h)
    exact ⟨fun _ => Or.inl rfl, id⟩
  | float d =>
    obtain rfl := Option.some.inj (Except.ok.inj h)
    refine ⟨fun _ => Or.inr (Or.inl ⟨d, rfl⟩), fun htruth => ?_⟩
    split <;> exact htruth
  | truth b =>
    obtain rfl := Option.some.inj (Except.ok.inj h)
    exact ⟨nofun, fun _ => rfl⟩
  | int n =>
    obtain ⟨hfinite, hkept⟩ := of_addWhole h
    exact ⟨fun _ => Or.inr (Or.inr ⟨n, rfl, hfinite⟩), hkept⟩
  | _ => cases h

/-- Unless a truth is among them, the values of a column without others can become binary64 numbers. -/
theorem of_ofValues (h : ofValues k vs = .ok (some k')) :
    (k'.hasTruth = false → ∀ v ∈ vs, v.FitsFloats) ∧ (k.hasTruth = true → k'.hasTruth = true) := by
  induction vs generalizing k with
  | nil =>
    obtain rfl := Option.some.inj (Except.ok.inj h)
    exact ⟨fun _ v hv => absurd hv List.not_mem_nil, id⟩
  | cons v rest ih =>
    obtain ⟨found, hadd, h⟩ := bind_eq_ok_iff.mp h
    cases found with
    | none => cases h
    | some between =>
      obtain ⟨hfits, hkept⟩ := of_add hadd
      obtain ⟨hrest, hkept'⟩ := ih h
      refine ⟨fun hno => List.forall_mem_cons.mpr ⟨hfits ?_, hrest hno⟩, hkept' ∘ hkept⟩
      exact eq_false_of_ne_true fun htruth => by simp [hkept' htruth] at hno

end ColumnKind

/-- What a column makes of a value: nothing, or a binary64 number where that can stand for it. -/
def Datum.CellOf (v cell : Datum) : Prop := cell = v ∨ v.FitsFloats ∧ cell = floatCell v

theorem of_tabulated {values cells : List Datum} (h : tabulated values = .ok cells) :
    ∃ cell : Datum → Datum, cells = values.map cell ∧ ∀ v ∈ values, v.CellOf (cell v) := by
  obtain ⟨found, hkind, h⟩ := bind_eq_ok_iff.mp h
  cases found with
  | none =>
    obtain rfl := Except.ok.inj h
    exact ⟨id, by simp, fun v _ => Or.inl rfl⟩
  | some k =>
    obtain rfl := Except.ok.inj h
    split
    next hfloat =>
      have hno : k.hasTruth = false := by
        simp [ColumnKind.becomesFloat] at hfloat
        exact hfloat.1
      exact ⟨floatCell, rfl, fun v hv => Or.inr ⟨(ColumnKind.of_ofValues hkind).1 hno v hv, rfl⟩⟩
    next => exact ⟨id, by simp, fun v _ => Or.inl rfl⟩

/-- The readings of a tag from some instant on are those of the samples, each as its column keeps it. -/
theorem History.of_ofSamples {past : List Sample} {h : History} (hform : History.ofSamples past = .ok h) :
    ∃ cell : Datum → Datum, tabulated (past.map (·.value)) = .ok (past.map fun p => cell p.value) ∧
      (∀ p ∈ past, p.value.CellOf (cell p.value)) ∧
      ∀ tag since, h.window tag since =
        (past.filter fun p => p.tag == tag && decide (since ≤ p.time)).map fun p => cell p.value := by
  obtain ⟨cells, hcells, hform⟩ := bind_eq_ok_iff.mp hform
  obtain ⟨cell, rfl, hcell⟩ := of_tabulated hcells
  obtain rfl := Except.ok.inj hform
  rw [List.map_map] at hcells
  refine ⟨cell, hcells, ?_, ?_⟩
  · intro p hp
    exact hcell p.value (List.mem_map_of_mem hp)
  · intro tag since
    rw [window, List.map_map, List.zip_map', List.zip_map', List.filter_map, List.map_map]
    rfl

/-! ## Comparisons in a column -/

namespace Condition

variable {c : Condition} {a b t : Datum} {s u : String}

/-- Two values compare alike with a third whose text is that of neither. -/
theorem compareTexts_congr (ha : a.written = .ok s) (hb : b.written = .ok u)
    (hapart : c = equals ∨ c = neq → ∀ w, t.written = .ok w → s ≠ w ∧ u ≠ w) :
    c.compareTexts a t = c.compareTexts b t := by
  have hequals : c = equals ∨ c = neq → equals.compareTexts a t = equals.compareTexts b t := by
    intro hc
    cases ht : t.written with
    | error e => simp [compareTexts, ha, hb, ht, bind, Except.bind]
    | ok w =>
      obtain ⟨hs, hu⟩ := hapart hc w ht
      simp [compareTexts, ha, hb, ht, hs, hu, bind, Except.bind, pure, Except.pure]
  cases c with
  | equals => exact hequals (Or.inl rfl)
  | neq => rw [compareTexts_neq, compareTexts_neq, hequals (Or.inr rfl)]
  | _ => rfl

/-- Values that stand for the same number or for none compare alike with numbers. -/
theorem eval_congr {x : Option Double} (ha : a.number? = .ok x) (hb : b.number? = .ok x)
    (htexts : (x = none ∨ t.number? = .ok none) → c.compareTexts a t = c.compareTexts b t) :
    c.eval a t = c.eval b t := by
  unfold eval
  rw [ha, hb]
  cases ht : t.number? with
  | error e => rfl
  | ok y =>
    cases x with
    | none => exact htexts (Or.inl rfl)
    | some x =>
      cases y with
      | none => exact htexts (Or.inr ht)
      | some y => rfl

end Condition

theorem Datum.number?_of_finite {n : Int} (h : ∀ negative, Double.ofInt n ≠ .infinite negative) :
    (int n).number? = .ok (some (Double.ofInt n)) := by
  rw [number?]
  generalize Double.ofInt n = d at h ⊢
  cases d with
  | infinite negative => exact absurd rfl (h negative)
  | _ => rfl

/-- The text of a threshold that stands for no number is not read as one. -/
theorem Threshold.isNan_of_shown {x : Threshold} {d : Double} (hx : x.datum.number? = .ok none)
    (hd : Double.ofText? x.datum.shown = some d) : d.isNan = true := by
  cases x with
  | whole n =>
    rw [datum, Datum.number?] at hx
    generalize Double.ofInt n = m at hx
    cases m <;> cases hx
  | real m =>
    rw [datum, Datum.number?] at hx
    split at hx
    next hnan =>
      cases m with
      | nan =>
        have hread : Double.ofText? "nan" = some .nan := by decide +kernel
        rw [← Option.some.inj (hread.symm.trans hd)]
        rfl
      | _ => cases hnan
    next => cases hx
  | text s =>
    have hs : Double.ofText? s = some d := hd
    rw [datum, Datum.number?, hs] at hx
    dsimp only at hx
    split at hx
    next hnan => exact hnan
    next => cases hx

namespace Rule

/-- The rule asks by its text whether a reading is null, or NaN, which a null becomes in a column of
binary64 numbers. -/
def AsksForNull (r : Rule) : Prop :=
  (r.condition = .equals ∨ r.condition = .neq) ∧
    (r.threshold.datum.shown = "None" ∨ r.threshold.datum.shown = "nan")

instance (r : Rule) : Decidable r.AsksForNull := inferInstanceAs (Decidable (_ ∧ _))

variable {r : Rule} {v cell : Datum}

/-- A whole number and the binary64 number nearest to it compare alike. -/
theorem holdsFor_nearest {n : Int} (h : ∀ negative, Double.ofInt n ≠ .infinite negative) :
    r.holdsFor (.float (Double.ofInt n)) = r.holdsFor (.int n) := by
  have hnan := Double.isNan_ofInt n
  have hfloat : (Datum.float (Double.ofInt n)).number? = .ok (some (Double.ofInt n)) := by
    rw [Datum.number?, hnan]
    rfl
  have hint := Datum.number?_of_finite h
  have hwritten : (Datum.int n).written = .ok (toString n) := by
    refine if_neg fun hlong => ?_
    exact (Datum.Readable.unwritable (Datum.readable_of_number? hint) hlong).1 n rfl
  refine Condition.eval_congr hfloat hint fun hnone => ?_
  have hthreshold : r.threshold.datum.number? = .ok none := hnone.resolve_left (by simp)
  refine Condition.compareTexts_congr rfl hwritten fun _ w hw => ?_
  obtain rfl := Datum.shown_of_written hw
  constructor
  · intro hsame
    have hread : Double.ofText? (Datum.float (Double.ofInt n)).shown = some (Double.ofInt n) :=
      Double.ofText?_text hnan
    rw [hsame] at hread
    rw [Threshold.isNan_of_shown hthreshold hread] at hnan
    cases hnan
  · intro hsame
    have hread := Double.ofText?_toString n
    rw [hsame] at hread
    have := Threshold.isNan_of_shown hthreshold hread
    rw [Double.isNan_ofDecimal] at this
    cases this

/-- A rule that does not ask for nulls judges a value as it judges what a column makes of it. -/
theorem holdsFor_cell (hr : ¬ r.AsksForNull) (hcell : v.CellOf cell) : r.holdsFor cell = r.holdsFor v := by
  rcases hcell with rfl | ⟨rfl | ⟨d, rfl⟩ | ⟨n, rfl, hfinite⟩, rfl⟩
  · rfl
  · refine Condition.eval_congr (x := none) rfl rfl fun _ => ?_
    refine Condition.compareTexts_congr (s := "nan") (u := "None") rfl rfl fun hequality w hw => ?_
    obtain rfl := Datum.shown_of_written hw
    exact ⟨fun h => hr ⟨hequality, Or.inr h.symm⟩, fun h => hr ⟨hequality, Or.inl h.symm⟩⟩
  · rfl
  · exact holdsFor_nearest hfinite

end Rule

/-! ## The share -/

namespace RateRule

variable {r : RateRule} {past : List Sample} {now : Instant} {span : Span} {st : RateStats}

/-- The readings of the rule's tag in the window of so much time that ends now. -/
def within (r : RateRule) (span : Span) (now : Instant) (past : List Sample) : List Sample :=
  past.filter fun p => p.tag == r.tag && decide (now - span ≤ p.time ∧ p.time ≤ now)

/-- Those behind the end of the window. -/
def beyond (r : RateRule) (span : Span) (now : Instant) (past : List Sample) : List Sample :=
  past.filter fun p => p.tag == r.tag && decide (now - span ≤ p.time ∧ now < p.time)

theorem within_subset : r.within span now past ⊆ past := List.filter_sublist.subset

theorem beyond_subset : r.beyond span now past ⊆ past := List.filter_sublist.subset

/-- How many readings satisfy the rule's condition with what a column has made of them. -/
def matching (r : RateRule) (cell : Datum → Datum) (readings : List Sample) : Nat :=
  readings.countP fun p => decide (r.holdsFor (cell p.value) = .ok true)

theorem matching_cell {cell : Datum → Datum} {readings : List Sample} (hr : ¬ r.AsksForNull)
    (hcell : ∀ p ∈ past, p.value.CellOf (cell p.value)) (hreadings : readings ⊆ past) :
    r.matching cell readings = r.matching id readings := by
  refine List.countP_congr fun p hp => ?_
  rw [Rule.holdsFor_cell hr (hcell p (hreadings hp)), id]

theorem of_windowStart {since : Instant} (h : r.windowStart now = .ok since) :
    ∃ span, Span.hours r.windowHours = .ok span ∧ since = now - span := by
  obtain ⟨span, hspan, h⟩ := bind_eq_ok_iff.mp h
  refine ⟨span, hspan, ?_⟩
  unfold Span.from? at h
  split at h
  next j hj =>
    obtain rfl := Except.ok.inj h
    rw [← (Instant.check?_eq_some hj).1]
    rfl
  next => cases h

/-- The readings since the start of the window are those in it and those behind its end. -/
theorem countP_since (p : Sample → Bool) :
    (past.filter fun s => s.tag == r.tag && decide (now - span ≤ s.time)).countP p =
      (r.within span now past).countP p + (r.beyond span now past).countP p := by
  rw [List.countP_eq_countP_filter_add _ p fun s => decide (s.time ≤ now), List.filter_filter,
    List.filter_filter]
  congr 2
  · refine List.filter_congr fun s _ => ?_
    rw [Bool.eq_iff_iff]
    simp only [Bool.and_eq_true, beq_iff_eq, decide_eq_true_eq]
    tauto
  · refine List.filter_congr fun s _ => ?_
    rw [Bool.eq_iff_iff]
    simp only [Bool.and_eq_true, beq_iff_eq, decide_eq_true_eq, Bool.not_eq_true', decide_eq_false_iff_not,
      Int.not_le]
    tauto

theorem of_shares (h : r.Shares past now st) :
    ∃ span, Span.hours r.windowHours = .ok span ∧
      st.total = (r.within span now past).length + (r.beyond span now past).length ∧
      ∃ cell : Datum → Datum, tabulated (past.map (·.value)) = .ok (past.map fun p => cell p.value) ∧
        (∀ p ∈ past, p.value.CellOf (cell p.value)) ∧
        st.matched =
          r.matching cell (r.within span now past) + r.matching cell (r.beyond span now past) := by
  obtain ⟨h, since, hform, hsince, -, -, rfl⟩ := h
  obtain ⟨span, hspan, rfl⟩ := of_windowStart hsince
  obtain ⟨cell, hcells, hcell, hwindow⟩ := History.of_ofSamples hform
  refine ⟨span, hspan, ?_, cell, hcells, hcell, ?_⟩
  · show (h.window r.tag (now - span)).length = _
    rw [hwindow, List.length_map, ← List.countP_true, countP_since]
  · show (h.window r.tag (now - span)).countP _ = _
    rw [hwindow, List.countP_map, countP_since]
    rfl

end RateRule

variable {rules : List RateRule} {s : Sample} {related past : List Sample} {now : Instant} {t u : Timers}
  {w : Candidate}

theorem of_firstRate (h : firstRate s related past now rules t = (.ok (some w), u)) :
    ∃ r ∈ rules, r.watches s = true ∧ ∃ st, r.Shares past now st ∧ w = .ofSample s (.rate r) (some st) := by
  unfold firstRate at h
  split at h
  next =>
    split at h
    next => cases h
    next hist hform =>
      have hfound : (firstRateIn s related hist now rules t).1 = some w :=
        Except.ok.inj (congrArg Prod.fst h)
      obtain ⟨r, hr, st, v, hverdict, rfl⟩ := of_rateFrom hfound
      obtain ⟨hmem, hw⟩ := List.mem_filter.mp hr
      obtain ⟨-, -, hshare⟩ := RateRule.of_verdict_some hverdict
      exact ⟨r, hmem, hw, st, ((RateRule.share_eq_some_iff hform).mp hshare).1, rfl⟩
  next => cases h

/-- The stats of a candidate count the readings of the rule's tag in the window and, with them, the ones
behind its end, in whatever order they come and whatever others come with them. Of both they count those
that satisfy the condition as the column has them, which is as they were read unless the rule asks for a
null by its text. -/
theorem firstRate_counts (h : firstRate s related past now rules t = (.ok (some w), u)) :
    ∃ r ∈ rules, r.watches s = true ∧ ∃ st span, w = .ofSample s (.rate r) (some st) ∧
      Span.hours r.windowHours = .ok span ∧
      st.total = (r.within span now past).length + (r.beyond span now past).length ∧
      (¬ r.AsksForNull →
        st.matched = r.matching id (r.within span now past) + r.matching id (r.beyond span now past)) ∧
      ∃ cell : Datum → Datum, tabulated (past.map (·.value)) = .ok (past.map fun p => cell p.value) ∧
        st.matched =
          r.matching cell (r.within span now past) + r.matching cell (r.beyond span now past) := by
  obtain ⟨r, hr, hw, st, hshares, rfl⟩ := of_firstRate h
  obtain ⟨span, hspan, htotal, cell, hcells, hcell, hmatched⟩ := RateRule.of_shares hshares
  refine ⟨r, hr, hw, st, span, rfl, hspan, htotal, fun hask => ?_, cell, hcells, hmatched⟩
  rw [hmatched, RateRule.matching_cell hask hcell RateRule.within_subset,
    RateRule.matching_cell hask hcell RateRule.beyond_subset]

/-- A fifth of the readings of the last day are to be low. -/
def RateRule.lowVoltage : RateRule :=
  { Rule.reads "Tag3" 10 0 with
    condition := .lt, thresholdPercent := Double.ofNat 20, window := some (Double.ofNat 24) }

/-- A fifth of them are not to be missing, in words. -/
def RateRule.nothingRead : RateRule :=
  { RateRule.lowVoltage with condition := .neq, threshold := .text "None" }

/-- What a rule finds at a reading on the second day, an hour after midnight. -/
def atOne (past : List Sample) (r : RateRule) : Except Failure (Option Candidate) × Timers :=
  firstRate (.reading "Tag3" 5 1500) [] past 90000000000 [r] (.empty true)

/-- Two readings of the last day count, from the first instant of the window on. -/
def lastDay : List Sample := [.reading "Tag3" 5 59, .reading "Tag3" 5 1499, .reading "Tag3" 50 60]

/-- One of the two is low. -/
theorem firstRate_counts_lastDay :
    ∃ w u st, atOne lastDay .lowVoltage = (.ok (some w), u) ∧ w.stats = some st ∧ st.total = 2 ∧
      st.matched = 1 := by
  have hsome : (atOne lastDay .lowVoltage).1.toOption.join.isSome = true := by decide +kernel
  rcases hrun : atOne lastDay .lowVoltage with ⟨e | _ | w, u⟩
  · simp [hrun, Except.toOption] at hsome
  · simp [hrun, Except.toOption] at hsome
  · obtain ⟨r, hr, -, st, span, rfl, hspan, htotal, hmatched, -⟩ := firstRate_counts hrun
    obtain rfl := List.mem_singleton.mp hr
    have hday : Span.hours RateRule.lowVoltage.windowHours = .ok 86400000000 := by decide +kernel
    obtain rfl := Except.ok.inj (hspan.symm.trans hday)
    refine ⟨_, u, st, rfl, rfl, ?_, ?_⟩
    · rw [htotal]
      decide
    · rw [hmatched (by decide +kernel)]
      decide +kernel

/-- A reading behind the end of the window counts, and a null in a column of numbers is not the one that
a rule asks for. -/
theorem behind_and_null_count :
    Span.hours (Double.ofNat 24) = .ok 86400000000 ∧
      (atOne [.reading "Tag3" 5 1499, .reading "Tag3" 50 1501] .lowVoltage).1.toOption.join.map
        (·.stats) = some (some (.ofCounts 1 2)) ∧
      (RateRule.lowVoltage.within 86400000000 90000000000
        [.reading "Tag3" 5 1499, .reading "Tag3" 50 1501]).length = 1 ∧
      (atOne [.reading "Tag3" 5 1499, { Sample.reading "Tag3" 0 1498 with value := .null }]
        .nothingRead).1.toOption.join.map (·.stats) = some (some (.ofCounts 2 2)) ∧
      RateRule.nothingRead.matching id (RateRule.nothingRead.within 86400000000 90000000000
        [.reading "Tag3" 5 1499, { Sample.reading "Tag3" 0 1498 with value := .null }]) = 1 := by
  decide +kernel

end FaultDesk
