import Mathlib.Data.List.Perm.Basic
import FaultDesk.Proofs.Source.JoinedRows
import FaultDesk.Sync.Desk

/-!
What is streamed after a time. The samples of a joined row have the time of the row, so those after a
later time are among those after an earlier one; and a desk whose source can be read streams the
samples after the time that is asked for, each as often as it is there.
-/

namespace FaultDesk

/-! ## Reading the joined rows -/

namespace SourceReader

variable {db : Readings} {t : Instant} {rows : List Row}

/-- All joined rows, where they can be read. -/
def allRows (db : Readings) : Except Failure (List Row) := do
  let (d, a) ← joinable db
  joinedRows d a

theorem tables_of_joinable {d a : ReadingTable} (h : joinable db = .ok (d, a)) :
    db.digital = some d ∧ db.analog = some a := by
  obtain ⟨tables, htables, h⟩ := bind_eq_ok_iff.mp h
  obtain ⟨-, -, h⟩ := bind_eq_ok_iff.mp h
  cases h
  exact Readings.of_tables_ok htables

theorem allRows_ok (h : allRows db = .ok rows) : rows = db.joined := by
  obtain ⟨⟨d, a⟩, hjoinable, h⟩ := bind_eq_ok_iff.mp h
  obtain ⟨hd, ha⟩ := tables_of_joinable hjoinable
  obtain ⟨drows, hdrows, h⟩ := bind_eq_ok_iff.mp h
  obtain ⟨arows, harows, h⟩ := bind_eq_ok_iff.mp h
  cases h
  simp only [Readings.joined, hd, ha, ReadingTable.of_read_ok hdrows, ReadingTable.of_read_ok harows]

/-- Rows are streamed only after a time of the calendar. -/
theorem time_of_streamRows_ok (h : streamRows db (.utc t) = .ok rows) : 0 ≤ t ∧ t < Instant.limit := by
  unfold streamRows at h
  cases hjoinable : joinable db with
  | error f => rw [hjoinable] at h; cases h
  | ok tables =>
    cases hinstant : (Stamp.utc t).instant? with
    | none =>
      rw [hjoinable] at h
      simp only [bind, Except.bind, hinstant] at h
      cases h
    | some i =>
      have hcheck : Instant.check? (t - 0) = some i := hinstant
      rw [Int.sub_zero] at hcheck
      obtain ⟨rfl, hbounds⟩ := Instant.check?_eq_some hcheck
      exact hbounds

theorem streamRows_utc (hpast : 0 ≤ t) (hlimit : t < Instant.limit) :
    streamRows db (.utc t) =
      (allRows db).map fun rows => Row.sorted (rows.filter (Cell.isAfter ·.timeCell t)) := by
  have hinstant := Stamp.instant?_utc ⟨hpast, hlimit⟩
  unfold streamRows allRows
  cases joinable db with
  | error f => rfl
  | ok tables =>
    obtain ⟨d, a⟩ := tables
    simp only [bind, Except.bind, hinstant]
    cases joinedRows d a <;> rfl

end SourceReader

/-! ## Samples of joined rows -/

namespace Row

variable {analogTags : List String} {row merged : Row} {v : Datum}

theorem lookup_takeOver {entry : String × Datum}
    (hkeep : analogTag? entry.1 = some timeColumn → timeColumn ∉ analogTags)
    (hv : merged.lookup timeColumn = some v) (hnull : v.isNull = false) :
    (takeOver analogTags merged entry).lookup timeColumn = some v := by
  unfold takeOver
  split
  next => exact hv
  next tag htag =>
    split
    next => exact hv
    next =>
      split
      next hover =>
        rw [lookup_put]
        split
        next heq =>
          -- the time is there, and its column is no analog tag
          subst heq
          have hthere : (merged.value? timeColumn).isNone = false := by
            unfold value?
            rw [hv]
            cases v <;> simp_all [Datum.isNull]
          have hno : analogTags.contains timeColumn = false := by
            simpa using hkeep htag
          rw [hthere, hno] at hover
          cases hover
        next => exact hv
      next => exact hv

/-- Merging leaves the time of a row as it is, unless an analog column stands for it. -/
theorem lookup_merge (hkeep : ∀ e ∈ row, analogTag? e.1 = some timeColumn → timeColumn ∉ analogTags)
    (hv : row.lookup timeColumn = some v) (hnull : v.isNull = false) :
    (row.merge analogTags).lookup timeColumn = some v := by
  unfold merge
  refine List.foldlRecOn (motive := fun m : Row => m.lookup timeColumn = some v) row _ hv ?_
  intro merged hmerged e he
  exact lookup_takeOver (hkeep e he) hmerged hnull

theorem kind_of_mem_explode {tags : List String} {kind : SourceKind} {ss : List Sample} {s : Sample}
    (h : explode tags analogTags kind row = .ok ss) (hs : s ∈ ss) : s.kind = kind := by
  obtain ⟨unit, -, h⟩ := bind_eq_ok_iff.mp h
  obtain ⟨time, -, h⟩ := bind_eq_ok_iff.mp h
  obtain ⟨⟨tag, value⟩, -, hsample⟩ := exists_of_mem_mapM h hs
  obtain ⟨-, -, -, hs⟩ := of_sample_ok hsample
  rw [hs]

theorem time_of_mem_explode {tags : List String} {kind : SourceKind} {ss : List Sample} {s : Sample}
    (hkeep : ∀ e ∈ row, analogTag? e.1 = some timeColumn → timeColumn ∉ analogTags)
    (hnull : row.timeCell.isNull = false) (h : explode tags analogTags kind row = .ok ss)
    (hs : s ∈ ss) : ∃ st, row.timeCell = .stamp st ∧ st.instant? = some s.time := by
  obtain ⟨v, hv, hcell⟩ : ∃ v, row.lookup timeColumn = some v ∧ row.timeCell = v := by
    unfold timeCell cell at hnull ⊢
    cases hlookup : row.lookup timeColumn with
    | none => rw [hlookup] at hnull; cases hnull
    | some v => exact ⟨v, rfl, rfl⟩
  have hmerged := lookup_merge hkeep hv (hcell ▸ hnull)
  unfold explode at h
  simp only [needed, hmerged, bind, Except.bind, Option.elim_some] at h
  split at h
  next => cases h
  next unit _ =>
    obtain ⟨⟨tag, value⟩, -, hsample⟩ := exists_of_mem_mapM h hs
    obtain ⟨st, htime, hinstant, -⟩ := of_sample_ok hsample
    exact ⟨st, hcell.trans htime, hinstant⟩

end Row

namespace Readings

variable {db : Readings} {now : Instant} {analogTags tags : List String}

/-- No column of the digital table stands for the times of rows as an analog reading of them. -/
def KeepsTimes (db : Readings) (analogTags : List String) : Prop :=
  ∀ t, db.digital = some t → ∀ column ∈ t.columns,
    Row.analogTag? column.1 = some Row.timeColumn → Row.timeColumn ∉ analogTags

/-- What stands for the time of a joined row as an analog reading of it is a column of the digital
table. -/
theorem Kept.digital_of_analogTime (h : db.Kept) {row : Row} (hrow : row ∈ db.joined)
    {e : String × Datum} (he : e ∈ row) (htag : Row.analogTag? e.1 = some Row.timeColumn) :
    ∃ t c, db.digital = some t ∧ (e.1, c) ∈ t.columns := by
  unfold joined at hrow
  split at hrow
  next d a hd ha =>
    obtain ⟨x, hx, y, rfl⟩ := ReadingTable.exists_of_mem_join hrow
    rcases List.mem_append.mp he with hdigital | hanalog
    · obtain ⟨values, hkept⟩ := h.digital d hd x hx
      obtain ⟨c, v, hcolumn, -⟩ := ReadingTable.keptRow_entry hkept hdigital
      exact ⟨d, c, hd, hcolumn⟩
    · -- the columns that an analog table shows are those of tags
      obtain ⟨column, hcolumn, rfl⟩ := List.mem_map.mp hanalog
      have hmark : "Analog".length = 6 := rfl
      have hname : column = Row.timeColumn := by
        simpa [Row.analogTag?, Row.analogMark, ← String.toList_inj, hmark] using htag
      have htagged := (List.mem_filter.mp hcolumn).2
      rw [hname] at htagged
      exact absurd htagged (by decide)
  next => cases hrow

theorem Settled.keepsTimes (h : db.Settled now) (hkeep : db.KeepsTimes analogTags) {row : Row}
    (hrow : row ∈ db.joined) : ∀ e ∈ row, Row.analogTag? e.1 = some Row.timeColumn →
      Row.timeColumn ∉ analogTags := by
  intro e he htag
  obtain ⟨t, c, ht, hcolumn⟩ := h.kept.digital_of_analogTime hrow he htag
  exact hkeep t ht (e.1, c) hcolumn htag

/-- A sample of a joined row that has a time has that time. -/
theorem Settled.time_of_mem_explode (h : db.Settled now) (hkeep : db.KeepsTimes analogTags)
    {row : Row} (hrow : row ∈ db.joined) (hnull : row.timeCell.isNull = false) {ss : List Sample}
    (hss : row.explode tags analogTags .unified = .ok ss) {s : Sample} (hs : s ∈ ss) :
    row.timeCell = .stamp (.naive s.time) := by
  obtain ⟨st, hst, hinstant⟩ :=
    Row.time_of_mem_explode (h.keepsTimes hkeep hrow) hnull hss hs
  have hnaive := h.kept.naive hrow hst
  rw [hnaive] at hinstant
  have htime : st.wall = s.time := Option.some.inj hinstant
  rw [hst, hnaive, htime]

end Readings

/-! ## The samples after a time -/

namespace SourceReader

variable {r : SourceReader} {db : Readings} {now first t : Instant} {row : Row} {s : Sample}

/-- The samples of a joined row. -/
def exploded (r : SourceReader) (row : Row) : Except Failure (List Sample) :=
  row.explode r.tags r.analogTags .unified

/-- The samples of a joined row; none where the row has no usable time. -/
def samplesOfRow (r : SourceReader) (row : Row) : List Sample := (r.exploded row).toOption.getD []

/-- The samples of the joined rows after a time. -/
def samplesAfter (r : SourceReader) (db : Readings) (t : Instant) : List Sample :=
  (db.joined.filter (Cell.isAfter ·.timeCell t)).flatMap r.samplesOfRow

theorem samplesOfRow_eq {ss : List Sample} (h : r.exploded row = .ok ss) : r.samplesOfRow row = ss := by
  rw [samplesOfRow, h]
  rfl

/-- A stream is read to its end where all rows have samples. -/
theorem explodeRows_none_iff {rows : List Row} :
    (r.explodeRows rows).2 = none ↔ ∀ row ∈ rows, ∃ ss, r.exploded row = .ok ss := by
  induction rows with
  | nil => simp [explodeRows]
  | cons row rest ih =>
    rw [List.forall_mem_cons, ← ih]
    cases hexploded : r.exploded row with
    | error f =>
      unfold exploded at hexploded
      simp [explodeRows, hexploded]
    | ok ss =>
      unfold exploded at hexploded
      simp [explodeRows, hexploded]

theorem exploded_of_mem_explodeRows {rows : List Row} {ss : List Sample}
    (h : (row, ss) ∈ (r.explodeRows rows).1) : r.exploded row = .ok ss := by
  induction rows with
  | nil => cases h
  | cons first rest ih =>
    unfold explodeRows at h
    split at h
    next => cases h
    next hexploded =>
      rcases List.mem_cons.mp h with heq | hmem
      · cases heq
        exact hexploded
      · exact ih hmem

theorem samples_explodeRows {rows : List Row} (h : (r.explodeRows rows).2 = none) :
    (r.explodeRows rows).1.flatMap (·.2) = rows.flatMap r.samplesOfRow := by
  induction rows with
  | nil => rfl
  | cons row rest ih =>
    obtain ⟨ss, hexploded⟩ := explodeRows_none_iff.mp h row List.mem_cons_self
    have hrest := explodeRows_none_iff.mpr fun x hx =>
      explodeRows_none_iff.mp h x (List.mem_cons_of_mem row hx)
    rw [List.flatMap_cons, samplesOfRow_eq hexploded, ← ih hrest]
    unfold exploded at hexploded
    simp [explodeRows, hexploded]

theorem time_of_mem_samplesOfRow (hsettled : db.Settled now) (hkeep : db.KeepsTimes r.analogTags)
    (hrow : row ∈ db.joined) (hafter : Cell.isAfter row.timeCell t = true)
    (hs : s ∈ r.samplesOfRow row) : row.timeCell = .stamp (.naive s.time) ∧ t < s.time := by
  have hnull : row.timeCell.isNull = false := by
    unfold Cell.isAfter at hafter
    simpa using (Bool.and_eq_true_iff.mp hafter).1
  have htime : row.timeCell = .stamp (.naive s.time) := by
    unfold samplesOfRow at hs
    cases hexploded : r.exploded row with
    | error f => simp [hexploded, Except.toOption] at hs
    | ok ss =>
      rw [hexploded] at hs
      exact hsettled.time_of_mem_explode hkeep hrow hnull hexploded hs
  rw [htime] at hafter
  exact ⟨htime, Cell.isAfter_naive.mp hafter⟩

theorem exists_of_mem_samplesAfter (hsettled : db.Settled now) (hkeep : db.KeepsTimes r.analogTags)
    (hs : s ∈ r.samplesAfter db t) :
    ∃ row ∈ db.joined, row.timeCell = .stamp (.naive s.time) ∧ t < s.time := by
  obtain ⟨row, hrow, hs'⟩ := List.mem_flatMap.mp hs
  obtain ⟨hjoined, hafter⟩ := List.mem_filter.mp hrow
  exact ⟨row, hjoined, time_of_mem_samplesOfRow hsettled hkeep hjoined hafter hs'⟩

/-- The samples after a later time are those among the samples after an earlier one. -/
theorem samplesAfter_eq_filter (hsettled : db.Settled now) (hkeep : db.KeepsTimes r.analogTags)
    (hle : first ≤ t) :
    r.samplesAfter db t = (r.samplesAfter db first).filter (fun s => decide (t < s.time)) := by
  have hrow : ∀ row ∈ db.joined,
      (if Cell.isAfter row.timeCell t then r.samplesOfRow row else []) =
        (if Cell.isAfter row.timeCell first then r.samplesOfRow row else []).filter
          (fun s => decide (t < s.time)) := by
    intro row hrow
    cases hlate : Cell.isAfter row.timeCell t with
    | true =>
      cases hearly : Cell.isAfter row.timeCell first with
      | true =>
        refine (List.filter_eq_self.mpr fun s hs => ?_).symm
        exact decide_eq_true (time_of_mem_samplesOfRow hsettled hkeep hrow hlate hs).2
      | false =>
        -- such a row has no time, and so no samples
        refine List.eq_nil_iff_forall_not_mem.mpr fun s hs => ?_
        obtain ⟨htime, hlt⟩ := time_of_mem_samplesOfRow hsettled hkeep hrow hlate hs
        rw [htime, Cell.isAfter_naive.mpr (Int.lt_of_le_of_lt hle hlt)] at hearly
        cases hearly
    | false =>
      cases hearly : Cell.isAfter row.timeCell first with
      | true =>
        refine (List.filter_eq_nil_iff.mpr fun s hs => ?_).symm
        obtain ⟨htime, -⟩ := time_of_mem_samplesOfRow hsettled hkeep hrow hearly hs
        rw [htime] at hlate
        simpa using fun hlt => Bool.false_ne_true (hlate.symm.trans (Cell.isAfter_naive.mpr hlt))
      | false => rfl
  unfold samplesAfter
  have hflat (t : Instant) : (db.joined.filter (Cell.isAfter ·.timeCell t)).flatMap r.samplesOfRow =
      db.joined.flatMap fun row => if Cell.isAfter row.timeCell t then r.samplesOfRow row else [] := by
    generalize db.joined = rows
    induction rows with
    | nil => rfl
    | cons row rest ih => by_cases h : Cell.isAfter row.timeCell t = true <;> simp [h, ih]
  rw [hflat, hflat, List.filter_flatMap]
  exact List.flatMap_congr hrow

end SourceReader

/-! ## What a desk streams -/

/-- The samples of a stream of rows. -/
def streamSamples (rows : List (Row × List Sample)) : List Sample := rows.flatMap (·.2)

namespace Desk

variable {d : Desk} {r : SourceReader} {t first : Instant} {rows : List (Row × List Sample)}

/-- A stream that is read to its end is of a time of the calendar, and has the joined rows after it. -/
theorem stream_ok (h : d.stream r t = .ok (rows, none)) :
    0 ≤ t ∧ t < Instant.limit ∧
      d.fromPart .stream (SourceReader.allRows d.readings) = .ok d.readings.joined ∧
      r.explodeRows (Row.sorted (d.readings.joined.filter (Cell.isAfter ·.timeCell t))) =
        (rows, none) := by
  unfold stream fromPart at h
  unfold fromPart
  split at h
  next => cases h
  next hup =>
    rw [if_neg hup]
    cases hstream : SourceReader.streamRows d.readings (.utc t) with
    | error f => rw [hstream] at h; cases h
    | ok sorted =>
      obtain ⟨hpast, hlimit⟩ := SourceReader.time_of_streamRows_ok hstream
      refine ⟨hpast, hlimit, ?_⟩
      rw [hstream] at h
      rw [SourceReader.streamRows_utc hpast hlimit] at hstream
      cases hall : SourceReader.allRows d.readings with
      | error f => rw [hall] at hstream; cases hstream
      | ok all =>
        rw [hall] at hstream
        have hjoined := SourceReader.allRows_ok hall
        subst hjoined
        cases hstream
        exact ⟨rfl, Except.ok.inj h⟩

/-- A source that can be read from one time is read to its end from every time after which the rows
have samples. -/
theorem stream_ok_of_exploded (h : d.stream r t = .ok (rows, none)) (hpast : 0 ≤ first)
    (hlimit : first < Instant.limit)
    (hexploded : ∀ row ∈ d.readings.joined, Cell.isAfter row.timeCell first = true →
      ∃ ss, r.exploded row = .ok ss) : ∃ all, d.stream r first = .ok (all, none) := by
  obtain ⟨-, -, hread, -⟩ := stream_ok h
  have hnone : (r.explodeRows
      (Row.sorted (d.readings.joined.filter (Cell.isAfter ·.timeCell first)))).2 = none := by
    refine SourceReader.explodeRows_none_iff.mpr fun row hrow => ?_
    obtain ⟨hjoined, hafter⟩ := List.mem_filter.mp (List.mem_mergeSort.mp hrow)
    exact hexploded row hjoined hafter
  refine ⟨(r.explodeRows
    (Row.sorted (d.readings.joined.filter (Cell.isAfter ·.timeCell first)))).1, ?_⟩
  rw [← hnone]
  unfold stream
  unfold fromPart at hread ⊢
  split at hread
  next => cases hread
  next hup =>
    rw [if_neg hup, SourceReader.streamRows_utc hpast hlimit, hread]
    rfl

theorem exploded_of_stream (h : d.stream r t = .ok (rows, none)) {row : Row}
    (hrow : row ∈ d.readings.joined) (hafter : Cell.isAfter row.timeCell t = true) :
    ∃ ss, r.exploded row = .ok ss := by
  obtain ⟨-, -, -, hrows⟩ := stream_ok h
  exact SourceReader.explodeRows_none_iff.mp (congrArg Prod.snd hrows) row
    (List.mem_mergeSort.mpr (List.mem_filter.mpr ⟨hrow, hafter⟩))

theorem streamSamples_perm (h : d.stream r t = .ok (rows, none)) :
    (streamSamples rows).Perm (r.samplesAfter d.readings t) := by
  obtain ⟨-, -, -, hrows⟩ := stream_ok h
  have hsamples := SourceReader.samples_explodeRows (congrArg Prod.snd hrows)
  rw [hrows] at hsamples
  rw [streamSamples, hsamples]
  exact (List.mergeSort_perm _ _).flatMap_right _

end Desk

end FaultDesk
