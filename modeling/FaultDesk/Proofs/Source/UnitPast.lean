import FaultDesk.Proofs.Source.Detectors
import FaultDesk.Proofs.Source.KeptValues

/-!
The past of a unit and the part of it that a query for the last hours gives. The query goes by the time
of the joined row and the sample by that of the merged one; where merging leaves the times of rows as
they are, the query gives every sample from its start on.
-/

namespace FaultDesk

theorem flatMap_filter_of_nil {α β : Type} {items : List α} {f : α → List β} {q : α → Bool}
    (h : ∀ x ∈ items, q x = false → f x = []) : (items.filter q).flatMap f = items.flatMap f := by
  induction items with
  | nil => rfl
  | cons x rest ih =>
    obtain ⟨hx, hrest⟩ := List.forall_mem_cons.mp h
    rw [List.flatMap_cons, ← ih hrest]
    cases hq : q x with
    | true => rw [List.filter_cons_of_pos hq, List.flatMap_cons]
    | false =>
      rw [List.filter_cons_of_neg (by simp [hq]), hx hq]
      rfl

/-! ## Merging and the time of a row -/

namespace Row

variable {row merged : Row} {analogTags : List String}

theorem cell_of_needed {column : String} {v : Datum} (h : row.needed column = .ok v) :
    row.cell column = v := by
  unfold needed at h
  unfold cell
  cases hlookup : row.lookup column with
  | none =>
    rw [hlookup] at h
    cases h
  | some w =>
    rw [hlookup] at h
    exact Except.ok.inj h

theorem timeCell_takeOver {entry : String × Datum} (h : analogTag? entry.1 ≠ some timeColumn) :
    (takeOver analogTags merged entry).timeCell = merged.timeCell := by
  unfold takeOver
  split
  next => rfl
  next tag htag =>
    have hother : timeColumn ≠ tag := by
      rintro rfl
      exact h htag
    split
    next => rfl
    next =>
      split
      next => simp [timeCell, cell, lookup_put, hother]
      next => rfl

/-- Merging leaves the time of a row as it is unless some column is named as its analog reading. -/
theorem timeCell_merge (h : ∀ e ∈ row, analogTag? e.1 ≠ some timeColumn) :
    (row.merge analogTags).timeCell = row.timeCell := by
  unfold merge
  refine List.foldlRecOn (motive := fun m => timeCell m = timeCell row) row _ rfl ?_
  intro merged hmerged e he
  exact (timeCell_takeOver (h e he)).trans hmerged

end Row

namespace Readings

variable {db : Readings} {analogTags : List String}

/-- Merging leaves the times of the joined rows as they are. -/
def TimesStay (db : Readings) (analogTags : List String) : Prop :=
  ∀ row ∈ db.joined, (row.merge analogTags).timeCell = row.timeCell

/-- It does so in all sources without a digital column that is named as an analog reading of the
time. -/
theorem Kept.timesStay (h : db.Kept) (hcolumns : ∀ t, db.digital = some t → ∀ column ∈ t.columns,
    Row.analogTag? column.1 ≠ some Row.timeColumn) : db.TimesStay analogTags := by
  intro row hrow
  refine Row.timeCell_merge fun e he htag => ?_
  obtain ⟨t, c, ht, hcolumn⟩ := h.digital_of_analogTime hrow he htag
  exact hcolumns t ht (e.1, c) hcolumn htag

end Readings

/-! ## The past -/

namespace SourceReader

variable {r : SourceReader} {db : Readings} {now : Instant} {unit : String} {hours : Double}
  {part whole : List Sample} {rows : List Row} {row : Row} {s : Sample}

/-- The samples of all joined rows of a unit: what a query for its last hours gives, but for its start. A
row that cannot be used has none. -/
def unitPast (r : SourceReader) (db : Readings) (unit : String) : Except Failure (List Sample) := do
  let (d, a) ← joinable db
  let cells ← unitCells (← d.typeOf Row.unitColumn) [unit]
  let rows ← joinedRows d a
  return (Row.sorted (rows.filter fun row => cells.any (Cell.equal row.unitCell ·))).flatMap
    r.samplesOfRow

theorem of_samplesOf (h : r.samplesOf .unified rows = .ok part) : part = rows.flatMap r.samplesOfRow := by
  obtain ⟨samples, hsamples, hflat⟩ := bind_eq_ok_iff.mp h
  obtain rfl := Except.ok.inj hflat
  have hall := mapM_eq_ok_iff.mp hsamples
  clear hsamples hflat h
  induction hall with
  | nil => rfl
  | cons hrow _ ih => rw [List.flatten_cons, List.flatMap_cons, samplesOfRow_eq hrow, ih]

/-- A query for the last hours takes the rows of the unit whose time is not before its start. -/
theorem of_history (h : r.history db now [unit] hours .unified = .ok part) :
    ∃ (span : Span) (ofUnit : Row → Bool), Span.hours hours = .ok span ∧
      part = (Row.sorted (db.joined.filter fun row =>
        Cell.notBefore row.timeCell (now - span) && ofUnit row)).flatMap r.samplesOfRow ∧
      r.unitPast db unit = .ok ((Row.sorted (db.joined.filter ofUnit)).flatMap r.samplesOfRow) := by
  unfold history at h
  rw [if_neg (by simp)] at h
  obtain ⟨span, hspan, h⟩ := bind_eq_ok_iff.mp h
  obtain ⟨cutoff, hcutoff, h⟩ := bind_eq_ok_iff.mp h
  obtain ⟨⟨d, a⟩, htables, h⟩ := bind_eq_ok_iff.mp h
  obtain ⟨-, -, h⟩ := bind_eq_ok_iff.mp h
  obtain ⟨type, htype, h⟩ := bind_eq_ok_iff.mp h
  obtain ⟨cells, hcells, h⟩ := bind_eq_ok_iff.mp h
  obtain ⟨rows, hrows, h⟩ := bind_eq_ok_iff.mp h
  split at h
  next => cases h
  next =>
    have hjoinable : joinable db = .ok (d, a) := htables
    have hjoined : rows = db.joined := allRows_ok (bind_eq_ok_iff.mpr ⟨(d, a), hjoinable, hrows⟩)
    obtain rfl := Span.of_from?_ok hcutoff
    refine ⟨span, fun row => cells.any (Cell.equal row.unitCell ·), hspan, ?_, ?_⟩
    · rw [of_samplesOf h, hjoined]
      rfl
    · unfold unitPast
      rw [← hjoined]
      exact bind_eq_ok_iff.mpr ⟨(d, a), hjoinable, bind_eq_ok_iff.mpr ⟨type, htype,
        bind_eq_ok_iff.mpr ⟨cells, hcells, bind_eq_ok_iff.mpr ⟨rows, hrows, rfl⟩⟩⟩⟩

/-- The past of a unit is of stored values. -/
theorem stored_of_mem_unitPast (hkept : db.Kept) (h : r.unitPast db unit = .ok whole) (hs : s ∈ whole) :
    s.value.Stored := by
  obtain ⟨⟨d, a⟩, hjoinable, h⟩ := bind_eq_ok_iff.mp h
  obtain ⟨type, -, h⟩ := bind_eq_ok_iff.mp h
  obtain ⟨cells, -, h⟩ := bind_eq_ok_iff.mp h
  obtain ⟨rows, hrows, h⟩ := bind_eq_ok_iff.mp h
  obtain rfl := Except.ok.inj h
  have hjoined : rows = db.joined := allRows_ok (bind_eq_ok_iff.mpr ⟨(d, a), hjoinable, hrows⟩)
  obtain ⟨row, hrow, hs⟩ := List.mem_flatMap.mp hs
  have hmem : row ∈ rows := (List.mem_filter.mp (List.mem_mergeSort.mp hrow)).1
  exact stored_of_mem_samplesOfRow (hkept.stored (hjoined ▸ hmem)) hs

/-- A sample of a joined row has the time of that row. -/
theorem time_of_kept (hkept : db.Kept) (hstay : db.TimesStay r.analogTags) (hrow : row ∈ db.joined)
    (hs : s ∈ r.samplesOfRow row) : row.timeCell = .stamp (.naive s.time) := by
  obtain ⟨ss, hss, hs⟩ := exploded_of_mem_samplesOfRow hs
  unfold exploded Row.explode at hss
  obtain ⟨unitCell, -, hss⟩ := bind_eq_ok_iff.mp hss
  obtain ⟨time, htime, hss⟩ := bind_eq_ok_iff.mp hss
  obtain ⟨⟨tag, value⟩, -, hsample⟩ := exists_of_mem_mapM hss hs
  obtain ⟨st, rfl, hinstant, -⟩ := Row.of_sample_ok hsample
  have hcell : row.timeCell = .stamp st := (hstay row hrow).symm.trans (Row.cell_of_needed htime)
  have hnaive := hkept.naive hrow hcell
  rw [hnaive] at hinstant
  have htime : st.wall = s.time := Option.some.inj hinstant
  rw [hcell, hnaive, htime]

/-- A query gives some of the past of a unit, and all of it from the start of the query on. -/
theorem history_filter_perm (hkept : db.Kept) (hstay : db.TimesStay r.analogTags)
    (h : r.history db now [unit] hours .unified = .ok part) :
    ∃ span whole, Span.hours hours = .ok span ∧ r.unitPast db unit = .ok whole ∧ part ⊆ whole ∧
      ∀ p : Sample → Bool, (∀ s, p s = true → now - span ≤ s.time) →
        (part.filter p).Perm (whole.filter p) := by
  obtain ⟨span, ofUnit, hspan, rfl, hwhole⟩ := of_history h
  have hsorted (rows : List Row) : (Row.sorted rows).Perm rows := List.mergeSort_perm _ _
  refine ⟨span, _, hspan, hwhole, ?_, fun p hp => ?_⟩
  · intro s hs
    obtain ⟨row, hrow, hs⟩ := List.mem_flatMap.mp hs
    obtain ⟨hjoined, hchosen⟩ := List.mem_filter.mp ((hsorted _).mem_iff.mp hrow)
    have hunit := (Bool.and_eq_true_iff.mp hchosen).2
    exact List.mem_flatMap.mpr
      ⟨row, (hsorted _).mem_iff.mpr (List.mem_filter.mpr ⟨hjoined, hunit⟩), hs⟩
  have hnone : ∀ row ∈ db.joined.filter ofUnit, Cell.notBefore row.timeCell (now - span) = false →
      (r.samplesOfRow row).filter p = [] := by
    intro row hrow hearly
    refine List.filter_eq_nil_iff.mpr fun s hs hpassed => ?_
    have htime := time_of_kept hkept hstay (List.mem_filter.mp hrow).1 hs
    rw [htime, Cell.notBefore_naive.mpr (hp s hpassed)] at hearly
    cases hearly
  have hrows := flatMap_filter_of_nil hnone
  rw [List.filter_filter] at hrows
  rw [List.filter_flatMap, List.filter_flatMap]
  -- the rows are sorted after they have been chosen
  refine ((hsorted _).flatMap_right _).trans ?_
  rw [hrows]
  exact ((hsorted _).flatMap_right _).symm

end SourceReader

end FaultDesk
