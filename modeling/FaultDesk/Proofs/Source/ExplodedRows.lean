import FaultDesk.Proofs.Datum.Entries
import FaultDesk.Proofs.Matching.Refusals
import FaultDesk.Proofs.Source.TableChoice

/-!
Joined rows column by column. What the merged row has of a column is settled by two entries of the row
alone, the column's own and its analog one, in whatever order the entries stand. The samples of a row
are those values, and their unit and time are what the merged row has of the two columns.
-/

namespace FaultDesk

namespace Row

variable {analogTags tags : List String} {row merged : Row} {entry : String × Datum}
  {column : String} {v : Datum}

/-! ## Entries -/

/-- The names of the columns. -/
def names (row : Row) : List String := row.map (·.1)

theorem analogTag?_eq_some_iff {tag : String} :
    analogTag? column = some tag ↔ column = analogMark ++ tag := by
  constructor
  · intro h
    unfold analogTag? at h
    split at h
    next hmark =>
      obtain ⟨rest, hrest⟩ := List.isPrefixOf_iff_prefix.mp hmark
      have hlength : analogMark.length = analogMark.toList.length := rfl
      rw [hlength, ← hrest, List.drop_left] at h
      obtain rfl := Option.some.inj h
      rw [← String.toList_inj, String.toList_append, String.toList_ofList, hrest]
    next => cases h
  · rintro rfl
    exact analogTag?_mark tag

theorem lookup_of_not_mem (h : column ∉ row.names) : row.lookup column = none := by
  refine List.lookup_eq_none_iff.mpr fun e he => ?_
  have hne : column ≠ e.1 := by
    rintro rfl
    exact h (List.mem_map_of_mem he)
  exact bne_iff_ne.mpr hne

theorem mem_names_iff : column ∈ row.names ↔ (row.lookup column).isSome := by
  constructor
  · intro h
    by_contra hnone
    rw [Option.not_isSome_iff_eq_none, List.lookup_eq_none_iff] at hnone
    obtain ⟨e, he, rfl⟩ := List.mem_map.mp h
    simpa using hnone e he
  · intro h
    by_contra hmem
    rw [lookup_of_not_mem hmem] at h
    cases h

theorem lookup_eq_some_iff_mem (hnames : row.names.Nodup) :
    row.lookup column = some v ↔ (column, v) ∈ row :=
  lookup_eq_some_iff_of_nodup hnames

theorem lookup_perm {row' : Row} (hnames : row.names.Nodup) (h : row'.Perm row) (column : String) :
    row'.lookup column = row.lookup column := by
  have hnames' : row'.names.Nodup := (h.map _).nodup_iff.mpr hnames
  refine Option.ext fun v => ?_
  rw [lookup_eq_some_iff_mem hnames, lookup_eq_some_iff_mem hnames', h.mem_iff]

theorem value?_eq_filter (row : Row) (column : String) :
    row.value? column = (row.lookup column).filter (!·.isNull) := by
  unfold value?
  cases row.lookup column with
  | none => rfl
  | some w => cases w <;> rfl

theorem value?_of_not_mem (h : column ∉ row.names) : row.value? column = none := by
  rw [value?_eq_filter, lookup_of_not_mem h]
  rfl

theorem value?_cons_self (row : Row) (column : String) (v : Datum) :
    value? ((column, v) :: row) column = if v.isNull then none else some v := by
  rw [value?_eq_filter, List.lookup_cons_self]
  cases hnull : v.isNull <;> simp [hnull]

theorem value?_cons_of_ne {other : String} (h : other ≠ column) (v : Datum) :
    value? ((other, v) :: row) column = row.value? column := by
  rw [value?_eq_filter, value?_eq_filter, List.lookup_cons, beq_eq_false_iff_ne.mpr (Ne.symm h)]

theorem names_put (row : Row) (column : String) (v : Datum) :
    (row.put column v).names = if column ∈ row.names then row.names else row.names ++ [column] := by
  induction row with
  | nil => rfl
  | cons e rest ih =>
    obtain ⟨c, w⟩ := e
    by_cases hc : c = column
    · simp [put, hc, names]
    · have hput : put ((c, w) :: rest) column v = (c, w) :: put rest column v := if_neg hc
      have hnames (rest : Row) : names ((c, w) :: rest) = c :: rest.names := rfl
      rw [hput, hnames, hnames, ih]
      by_cases hmem : column ∈ names rest <;> simp [hmem, Ne.symm hc]

/-! ## Merging, one column at a time -/

theorem lookup_takeOver_of_ne (h : entry.1 ≠ analogMark ++ column) :
    (takeOver analogTags merged entry).lookup column = merged.lookup column := by
  unfold takeOver
  split
  next => rfl
  next tag htag =>
    have hne : column ≠ tag := by
      rintro rfl
      exact h (analogTag?_eq_some_iff.mp htag)
    split
    next => rfl
    next =>
      split
      next => rw [lookup_put, if_neg hne]
      next => rfl

theorem takeOver_mark (analogTags : List String) (merged : Row) (column : String) (v : Datum) :
    takeOver analogTags merged (analogMark ++ column, v) =
      if v.isNull then merged
      else if (merged.value? column).isNone || analogTags.contains column then merged.put column v
      else merged := by
  simp only [takeOver, analogTag?_mark]

/-- What a joined row has of a column with its analog reading taken in: the analog reading, where
there is one and either the column has no value or it is an analog tag; else the column's own entry. -/
def effective? (analogTags : List String) (row : Row) (column : String) : Option Datum :=
  match row.value? (analogMark ++ column) with
  | some v =>
    if (row.value? column).isNone || analogTags.contains column then some v else row.lookup column
  | none => row.lookup column

/-- Of the entries that are taken over only the analog one of a column bears on it. -/
theorem lookup_foldl_takeOver {entries : Row} (hnames : entries.names.Nodup) :
    (entries.foldl (takeOver analogTags) merged).lookup column =
      match entries.value? (analogMark ++ column) with
      | some v =>
        if (merged.value? column).isNone || analogTags.contains column then some v
        else merged.lookup column
      | none => merged.lookup column := by
  induction entries generalizing merged with
  | nil => rfl
  | cons e rest ih =>
    obtain ⟨name, v⟩ := e
    obtain ⟨hfirst, hrest⟩ := List.nodup_cons.mp hnames
    rw [List.foldl_cons, ih hrest]
    by_cases hname : name = analogMark ++ column
    · -- no later entry has the name
      subst hname
      rw [value?_of_not_mem hfirst, value?_cons_self, takeOver_mark]
      cases v.isNull with
      | true => rfl
      | false =>
        simp only [Bool.false_eq_true, ↓reduceIte]
        split
        next => rw [lookup_put, if_pos rfl]
        next => rfl
    · have hsame : (takeOver analogTags merged (name, v)).lookup column = merged.lookup column :=
        lookup_takeOver_of_ne hname
      have hvalue : (takeOver analogTags merged (name, v)).value? column = merged.value? column := by
        rw [value?_eq_filter, value?_eq_filter, hsame]
      rw [value?_cons_of_ne hname, hsame, hvalue]

/-- Merging takes each column to its effective entry. -/
theorem lookup_merge_eq (hnames : row.names.Nodup) (analogTags : List String) (column : String) :
    (row.merge analogTags).lookup column = row.effective? analogTags column :=
  lookup_foldl_takeOver hnames

/-- The order of the entries does not matter. -/
theorem effective?_perm {row' : Row} (hnames : row.names.Nodup) (h : row'.Perm row)
    (analogTags : List String) (column : String) :
    row'.effective? analogTags column = row.effective? analogTags column := by
  unfold effective?
  simp only [value?_eq_filter, lookup_perm hnames h]

/-- A column that is no analog tag, or has no analog reading, keeps its value. -/
theorem effective?_of_value? (hv : row.value? column = some v)
    (hkept : column ∉ analogTags ∨ row.value? (analogMark ++ column) = none) :
    row.effective? analogTags column = some v := by
  have hlookup := (value?_eq_some_iff.mp hv).1
  unfold effective?
  split
  next w hw =>
    have hno : column ∉ analogTags := hkept.resolve_right (by simp [hw])
    simp [hv, hno, hlookup]
  next => exact hlookup

theorem isSome_effective? :
    (row.effective? analogTags column).isSome ↔
      column ∈ row.names ∨ (row.value? (analogMark ++ column)).isSome := by
  rw [mem_names_iff]
  unfold effective?
  split
  next v hv =>
    rw [hv]
    split
    next => simp
    next hkeeps =>
      -- the column has a value of its own
      have hlookup : (row.lookup column).isSome := by
        by_contra hnone
        rw [Option.not_isSome_iff_eq_none] at hnone
        simp [value?_eq_filter, hnone] at hkeeps
      exact iff_of_true hlookup (Or.inl hlookup)
  next hnone => simp [hnone]

/-- Merging leaves the columns in place and adds, behind them, those that only have an analog
reading. -/
theorem names_merge (hnames : row.names.Nodup) (analogTags : List String) :
    ∃ added, (row.merge analogTags).names = row.names ++ added ∧ (row.names ++ added).Nodup ∧
      ∀ column, column ∈ added ↔
        column ∉ row.names ∧ (row.value? (analogMark ++ column)).isSome := by
  have hgrown : ∃ added, (row.merge analogTags).names = row.names ++ added ∧
      (row.names ++ added).Nodup := by
    unfold merge
    refine List.foldlRecOn (motive := fun m => ∃ added, names m = row.names ++ added ∧
      (row.names ++ added).Nodup) row _ ⟨[], by rw [List.append_nil]; exact ⟨rfl, hnames⟩⟩ ?_
    rintro merged ⟨added, hmerged, hnodup⟩ e -
    unfold takeOver
    split
    next => exact ⟨added, hmerged, hnodup⟩
    next tag _ =>
      split
      next => exact ⟨added, hmerged, hnodup⟩
      next =>
        split
        next =>
          rw [names_put, hmerged]
          split
          next => exact ⟨added, rfl, hnodup⟩
          next hnew =>
            refine ⟨added ++ [tag], by rw [List.append_assoc], ?_⟩
            rw [← List.append_assoc, ← List.concat_eq_append]
            exact (List.nodup_concat _ _).mpr ⟨hnew, hnodup⟩
        next => exact ⟨added, hmerged, hnodup⟩
  obtain ⟨added, hmerged, hnodup⟩ := hgrown
  refine ⟨added, hmerged, hnodup, fun column => ?_⟩
  have hmem : column ∈ row.names ++ added ↔
      column ∈ row.names ∨ (row.value? (analogMark ++ column)).isSome := by
    rw [← hmerged, mem_names_iff, lookup_merge_eq hnames, isSome_effective?]
  rw [List.mem_append] at hmem
  have hapart : column ∈ row.names → column ∉ added :=
    fun hrow hadded => List.disjoint_of_nodup_append hnodup hrow hadded
  tauto

/-! ## Samples -/

/-- The samples of a row whose unit and time can be used: one for each tag of interest of which the
merged row has a value. -/
theorem explode_eq {unit : Datum} {time : Stamp} {t : Instant} (kind : SourceKind)
    (hunit : (row.merge analogTags).lookup unitColumn = some unit)
    (htime : (row.merge analogTags).lookup timeColumn = some (.stamp time))
    (ht : time.instant? = some t) :
    row.explode tags analogTags kind =
      .ok ((ascending tags).filterMap fun tag => ((row.merge analogTags).value? tag).map fun value =>
        ⟨unit.shown, tag, value, t, kind, some (row.merge analogTags)⟩) := by
  have hsample (e : String × Datum) : sample unit.shown e.1 e.2 (.stamp time) kind
      (some (row.merge analogTags)) =
        .ok ⟨unit.shown, e.1, e.2, t, kind, some (row.merge analogTags)⟩ := by
    simp only [sample, Sample.ofValues, ht]
    rfl
  have hsamples : row.explode tags analogTags kind =
      ((ascending tags).filterMap fun tag => ((row.merge analogTags).value? tag).map (tag, ·)).mapM
        fun e => sample unit.shown e.1 e.2 (.stamp time) kind (some (row.merge analogTags)) := by
    unfold explode needed
    dsimp only
    rw [hunit, htime]
    rfl
  rw [hsamples]
  refine mapM_eq_ok_iff.mpr ?_
  have hmap : ((ascending tags).filterMap fun tag => ((row.merge analogTags).value? tag).map
      fun value => (⟨unit.shown, tag, value, t, kind, some (row.merge analogTags)⟩ : Sample)) =
      ((ascending tags).filterMap fun tag => ((row.merge analogTags).value? tag).map (tag, ·)).map
        fun e => ⟨unit.shown, e.1, e.2, t, kind, some (row.merge analogTags)⟩ := by
    rw [List.map_filterMap]
    simp only [Option.map_map]
    rfl
  rw [hmap, List.forall₂_map_right_iff]
  exact List.forall₂_same.mpr fun e _ => hsample e

/-- A joined row is merged and exploded column by column, in whatever order its entries stand. The
merged row has of each column its effective entry, and no column more than those that have an analog
reading; a column that is no analog tag, or has no analog reading, keeps its value. If the effective
unit has a text and the effective time is one that UTC has, the row has one sample, in ascending order
of tag, of each tag of interest that has an effective value: it carries that value, the text of the
unit, the time in UTC and the whole merged row. -/
theorem explode_entrywise (hnames : row.names.Nodup) (tags analogTags : List String)
    (kind : SourceKind) :
    (∀ row' : Row, row'.Perm row → ∀ column,
      row'.effective? analogTags column = row.effective? analogTags column) ∧
    (∀ column, (row.merge analogTags).lookup column = row.effective? analogTags column) ∧
    (∃ added, (row.merge analogTags).names = row.names ++ added ∧ (row.names ++ added).Nodup ∧
      ∀ column, column ∈ added ↔
        column ∉ row.names ∧ (row.value? (analogMark ++ column)).isSome) ∧
    (∀ column v, row.value? column = some v →
      column ∉ analogTags ∨ row.value? (analogMark ++ column) = none →
        row.effective? analogTags column = some v) ∧
    ∀ unit text time t, row.effective? analogTags unitColumn = some unit → unit.written = .ok text →
      row.effective? analogTags timeColumn = some (.stamp time) → time.instant? = some t →
      ∃ samples, row.explode tags analogTags kind = .ok samples ∧
        (samples.map (·.tag)).Pairwise (· < ·) ∧
        (∀ tag, tag ∈ samples.map (·.tag) ↔
          tag ∈ tags ∧ ∃ v, row.effective? analogTags tag = some v ∧ v.isNull = false) ∧
        ∀ s ∈ samples, row.effective? analogTags s.tag = some s.value ∧ s.unit = text ∧ s.time = t ∧
          s.kind = kind ∧ s.row = some (row.merge analogTags) := by
  have hmerged := lookup_merge_eq hnames analogTags
  refine ⟨fun row' h => effective?_perm hnames h analogTags, hmerged, names_merge hnames analogTags,
    fun column v hv hkept => effective?_of_value? hv hkept, ?_⟩
  intro unit text time t hunit htext htime ht
  have hexplode := @explode_eq analogTags tags row unit time t kind ((hmerged _).trans hunit)
    ((hmerged _).trans htime) ht
  obtain ⟨hordered, hinterest⟩ := ascending_spec tags
  have hvalue (tag : String) (v : Datum) : (row.merge analogTags).value? tag = some v ↔
      row.effective? analogTags tag = some v ∧ v.isNull = false := by
    rw [value?_eq_some_iff, hmerged]
  refine ⟨_, hexplode, ?_, ?_, ?_⟩
  · rw [tags_of_explode hexplode]
    exact hordered.filter _
  · intro tag
    rw [tags_of_explode hexplode, List.mem_filter, hinterest, Option.isSome_iff_exists]
    simp only [hvalue]
  · intro s hs
    obtain ⟨tag, -, hs⟩ := List.mem_filterMap.mp hs
    obtain ⟨v, hv, rfl⟩ := Option.map_eq_some_iff.mp hs
    exact ⟨((hvalue tag v).mp hv).1, Datum.shown_of_written htext, rfl, rfl, rfl⟩

/-- A row with analog readings of four tags, one of them under a doubled mark. -/
def levelRow : Row :=
  [("AnalogTag5", .int 7), ("AnalogAnalogTag3", .int 9), ("Tag1", .null), (unitColumn, .int 101),
    ("AnalogTag3", .int 12), ("Tag5", .int 1), (timeColumn, .stamp ⟨7200000000, some 3600000000⟩),
    ("AnalogTag1", .null), ("AnalogTag6", .int 4), ("Tag6", .int 2)]

/-- Tag3 is filled from its analog reading, Tag5 replaced by it and Tag6 left as it is; Tag1 has no
sample. -/
theorem levelRow_entrywise :
    levelRow.names.Nodup ∧
      ∃ samples, levelRow.explode ["Tag6", "Tag1", "Tag5", "Tag3"] ["Tag5"] .unified = .ok samples ∧
        (∀ tag, tag ∈ samples.map (·.tag) ↔ tag = "Tag3" ∨ tag = "Tag5" ∨ tag = "Tag6") ∧
        ∀ s ∈ samples, s.unit = "101" ∧ s.time = 3600000000 ∧ (s.tag = "Tag3" → s.value = .int 12) ∧
          (s.tag = "Tag5" → s.value = .int 7) ∧ (s.tag = "Tag6" → s.value = .int 2) := by
  have hnames : levelRow.names.Nodup := by decide
  have hone : levelRow.effective? ["Tag5"] "Tag1" = some .null := rfl
  have hthree : levelRow.effective? ["Tag5"] "Tag3" = some (.int 12) := rfl
  have hfive : levelRow.effective? ["Tag5"] "Tag5" = some (.int 7) := rfl
  have hsix : levelRow.effective? ["Tag5"] "Tag6" = some (.int 2) := rfl
  obtain ⟨-, -, -, -, hexplode⟩ :=
    explode_entrywise hnames ["Tag6", "Tag1", "Tag5", "Tag3"] ["Tag5"] .unified
  obtain ⟨samples, hsamples, -, htags, hfields⟩ := hexplode (.int 101) "101"
    ⟨7200000000, some 3600000000⟩ 3600000000 rfl (by decide +kernel) rfl rfl
  refine ⟨hnames, samples, hsamples, fun tag => ?_, fun s hs => ?_⟩
  · rw [htags]
    constructor
    · rintro ⟨htag, v, hv, hnull⟩
      simp only [List.mem_cons, List.not_mem_nil, or_false] at htag
      rcases htag with rfl | rfl | rfl | rfl
      · exact Or.inr (Or.inr rfl)
      · obtain rfl := Option.some.inj (hone.symm.trans hv)
        cases hnull
      · exact Or.inr (Or.inl rfl)
      · exact Or.inl rfl
    · rintro (rfl | rfl | rfl)
      · exact ⟨by decide, _, hthree, rfl⟩
      · exact ⟨by decide, _, hfive, rfl⟩
      · exact ⟨by decide, _, hsix, rfl⟩
  · obtain ⟨hvalue, hunit, htime, -⟩ := hfields s hs
    refine ⟨hunit, htime, fun h => ?_, fun h => ?_, fun h => ?_⟩
    · rw [h, hthree] at hvalue
      exact (Option.some.inj hvalue).symm
    · rw [h, hfive] at hvalue
      exact (Option.some.inj hvalue).symm
    · rw [h, hsix] at hvalue
      exact (Option.some.inj hvalue).symm

/-- A row that names another unit and an earlier time among its analog readings. -/
def movedRow : Row :=
  [(unitColumn, .int 101), (timeColumn, .stamp (.naive 7200000000)), ("Tag3", .int 1),
    ("AnalogRTUNumber", .int 202), ("AnalogDateTimeField", .stamp (.naive 3600000000))]

/-- Where the unit and the time are analog tags, the sample is not of the row's own unit and time. -/
theorem movedRow_exploded :
    movedRow.value? unitColumn = some (.int 101) ∧
      movedRow.value? timeColumn = some (.stamp (.naive 7200000000)) ∧
      ∃ s, movedRow.explode ["Tag3"] [unitColumn, timeColumn] .unified = .ok [s] ∧
        s.unit ≠ "101" ∧ s.time ≠ 7200000000 := by
  refine ⟨rfl, rfl, ⟨"202", "Tag3", .int 1, 3600000000, .unified,
    some (movedRow.merge [unitColumn, timeColumn])⟩, ?_, by decide, by decide⟩
  unfold explode
  rw [Config.ascending_of_ordered (List.pairwise_singleton ..)]
  rfl

end Row

end FaultDesk
