import FaultDesk.Proofs.Source.JoinedRows

/-!
The two states that are worked out of the digital table. A unit is reported for a record in which
the tag of the state is 0, and the sample has the time of the latest of these. Records in which the
tag has come back are not looked at: what is reported is the last zero, not the last record.
-/

namespace FaultDesk

/-! ## The times of a table that are times at all -/

namespace Cell

/-- A time without an offset, or none. -/
def Plain (c : Datum) : Prop := c = .null ∨ ∃ i, c = .stamp (.naive i)

variable {a b c best : Datum} {cells : List Datum} {i j : Instant}

theorem plain_null : Plain .null := .inl rfl

theorem notBefore_naive : notBefore (.stamp (.naive i)) j = true ↔ j ≤ i :=
  decide_eq_true_iff

theorem notAfter_naive : notAfter (.stamp (.naive i)) j = true ↔ i ≤ j :=
  decide_eq_true_iff

theorem le_naive : le (.stamp (.naive i)) (.stamp (.naive j)) = decide (i ≤ j) := rfl

theorem null_le (c : Datum) : le .null c = true := by
  cases c <;> rfl

theorem not_le_null : le (.stamp (.naive i)) .null = false := rfl

theorem Plain.le_refl (ha : Plain a) : le a a = true := by
  obtain rfl | ⟨i, rfl⟩ := ha
  · exact null_le _
  · simp [le_naive]

theorem Plain.le_trans (ha : Plain a) (hb : Plain b) (hc : Plain c) (hab : le a b = true)
    (hbc : le b c = true) : le a c = true := by
  obtain rfl | ⟨i, rfl⟩ := ha
  · exact null_le c
  · obtain rfl | ⟨j, rfl⟩ := hb
    · rw [not_le_null] at hab
      cases hab
    · obtain rfl | ⟨k, rfl⟩ := hc
      · rw [not_le_null] at hbc
        cases hbc
      · simp only [le_naive, decide_eq_true_iff] at hab hbc ⊢
        exact Int.le_trans hab hbc

theorem Plain.le_of_not_le (ha : Plain a) (hb : Plain b) (h : le a b = false) : le b a = true := by
  obtain rfl | ⟨i, rfl⟩ := ha
  · rw [null_le] at h
    cases h
  · obtain rfl | ⟨j, rfl⟩ := hb
    · exact null_le _
    · simp only [le_naive, decide_eq_false_iff_not, decide_eq_true_iff] at h ⊢
      exact Int.le_of_lt (Int.not_le.mp h)

/-- The search for the greatest cell ends with the cell it starts with, or with one it comes by. -/
theorem foldl_greatest_from (best : Datum) (cells : List Datum) :
    let g := cells.foldl (fun best c => if le best c then c else best) best
    g = best ∨ g ∈ cells := by
  induction cells generalizing best with
  | nil => exact .inl rfl
  | cons x xs ih =>
    simp only [List.foldl_cons]
    split
    · rcases ih x with h | h
      · exact .inr (List.mem_cons.mpr (.inl h))
      · exact .inr (List.mem_cons_of_mem x h)
    · exact (ih best).imp_right (List.mem_cons_of_mem x)

/-- No cell comes behind the one the search ends with. -/
theorem foldl_greatest_bounds (hbest : Plain best) (hcells : ∀ c ∈ cells, Plain c) :
    let g := cells.foldl (fun best c => if le best c then c else best) best
    ∀ c ∈ best :: cells, le c g = true := by
  induction cells generalizing best with
  | nil => simpa using hbest.le_refl
  | cons x xs ih =>
    have hx : Plain x := hcells x List.mem_cons_self
    have hxs : ∀ c ∈ xs, Plain c := fun c hc => hcells c (List.mem_cons_of_mem x hc)
    have hend (b : Datum) (hb : Plain b) :
        Plain (xs.foldl (fun best c => if le best c then c else best) b) := by
      rcases foldl_greatest_from b xs with heq | hmem
      · rwa [heq]
      · exact hxs _ hmem
    simp only [List.foldl_cons, List.forall_mem_cons]
    by_cases hle : le best x = true
    · rw [if_pos hle]
      obtain ⟨hxg, hall⟩ := List.forall_mem_cons.mp (ih hx hxs)
      exact ⟨hbest.le_trans hx (hend x hx) hle hxg, hxg, hall⟩
    · rw [if_neg hle]
      obtain ⟨hbg, hall⟩ := List.forall_mem_cons.mp (ih hbest hxs)
      have hxbest : le x best = true := hbest.le_of_not_le hx (Bool.eq_false_iff.mpr hle)
      exact ⟨hbg, hx.le_trans hbest (hend best hbest) hxbest hbg, hall⟩

theorem greatest_mem (cells : List Datum) : greatest cells = .null ∨ greatest cells ∈ cells :=
  foldl_greatest_from .null cells

theorem le_greatest (hcells : ∀ c ∈ cells, Plain c) (hc : c ∈ cells) :
    le c (greatest cells) = true :=
  foldl_greatest_bounds plain_null hcells c (List.mem_cons_of_mem _ hc)

end Cell

namespace ColumnType

variable {v w : Datum}

/-- A column of times keeps times without an offset and nulls, and nothing else. -/
theorem plain_of_keep (h : stamp.keep v = .ok w) : Cell.Plain w := by
  cases v with
  | null =>
    cases h
    exact Cell.plain_null
  | stamp s =>
    simp only [keep, if_true] at h
    cases h
    exact .inr ⟨s.wall, rfl⟩
  | truth b =>
    simp only [keep, keepWhole] at h
    split at h <;> cases h
  | int n =>
    simp only [keep, keepWhole] at h
    split at h <;> cases h
  | float d =>
    simp only [keep, keepDouble] at h
    split at h
    · simp at h
    · cases h
  | _ => simp [keep, keepText] at h

end ColumnType

/-- If any of the rows shows a time, none of them shows anything but times without an offset. -/
def Row.Timed (rows : List Row) : Prop :=
  ∀ row ∈ rows, ∀ s, row.timeCell = .stamp s → ∀ other ∈ rows, Cell.Plain other.timeCell

theorem Row.Timed.filter {rows : List Row} (h : Row.Timed rows) (p : Row → Bool) :
    Row.Timed (rows.filter p) := by
  intro row hrow s hs other hother
  exact h row (List.mem_of_mem_filter hrow) s hs other (List.mem_of_mem_filter hother)

namespace ReadingTable

variable {t : ReadingTable} {row : Row} {values : List Datum} {name : String} {v : Datum}

/-- The value a kept row shows in a column is what the first column of that name has kept. -/
theorem lookup_keptRow (h : t.keptRow values = .ok row) (hv : row.lookup name = some v) :
    ∃ c x, t.columns.lookup name = some c ∧ c.keep x = .ok v := by
  unfold keptRow at h
  have hall := mapM_eq_ok_iff.mp h
  clear h
  generalize t.columns = columns at hall ⊢
  generalize 0 = k at hall
  induction columns generalizing row k with
  | nil =>
    cases hall
    cases hv
  | cons column columns ih =>
    obtain ⟨title, type⟩ := column
    rw [List.zipIdx_cons] at hall
    obtain ⟨e, rest, hhead, htail, rfl⟩ := List.forall₂_cons_left_iff.mp hall
    obtain ⟨w, hkeep, rfl⟩ : ∃ w, type.keep (values.getD k .null) = .ok w ∧ e = (title, w) := by
      cases hcell : type.keep (values.getD k .null) with
      | error f =>
        simp only [hcell] at hhead
        cases hhead
      | ok w =>
        simp only [hcell] at hhead
        cases hhead
        exact ⟨w, rfl, rfl⟩
    rw [List.lookup_cons] at hv ⊢
    split at hv
    next =>
      cases hv
      exact ⟨type, _, rfl, hkeep⟩
    next => exact ih hv _ htail

theorem Kept.timed (ht : t.Kept) : Row.Timed t.rows := by
  intro row hrow s hs other hother
  obtain ⟨values, hkept⟩ := ht row hrow
  have hshown : row.lookup Row.timeColumn = some (.stamp s) := by
    unfold Row.timeCell Row.cell at hs
    cases hlookup : row.lookup Row.timeColumn with
    | none => rw [hlookup] at hs; cases hs
    | some v => rw [hlookup] at hs; exact congrArg some hs
  obtain ⟨c, x, hcolumn, hkeep⟩ := lookup_keptRow hkept hshown
  obtain rfl := (ColumnType.keep_stamp hkeep).1
  obtain ⟨values', hkept'⟩ := ht other hother
  cases hlookup : other.lookup Row.timeColumn with
  | none =>
    left
    simp [Row.timeCell, Row.cell, hlookup]
  | some v =>
    obtain ⟨c', x', hcolumn', hkeep'⟩ := lookup_keptRow hkept' hlookup
    obtain rfl := Option.some.inj (hcolumn.symm.trans hcolumn')
    simpa [Row.timeCell, Row.cell, hlookup] using ColumnType.plain_of_keep hkeep'

end ReadingTable

theorem Span.of_from?_ok {i j : Instant} {s : Span} (h : Span.from? i s = .ok j) : j = i + s := by
  unfold Span.from? Instant.shift? at h
  split at h
  next k hk =>
    cases h
    exact (Instant.check?_eq_some hk).1.symm
  next => cases h

/-! ## Units and the latest of their rows -/

namespace SourceReader

variable {rows : List Row} {u : Datum} {s : Stamp}

/-- The rows of one unit, as units are told apart. -/
def ofUnit (rows : List Row) (u : Datum) : List Row :=
  rows.filter fun r => Cell.le r.unitCell u && Cell.le u r.unitCell

theorem ofUnit_filter (p : Row → Bool) (rows : List Row) (u : Datum) :
    ofUnit (rows.filter p) u = (ofUnit rows u).filter p := by
  simp only [ofUnit, List.filter_filter, Bool.and_comm]

theorem of_mem_ofUnit {row : Row} (h : row ∈ ofUnit rows u) : row ∈ rows :=
  (List.mem_filter.mp h).1

/-- A unit that is last seen at some time has a row of that time, and none of a later one. -/
theorem latest_of_mem_lastSeen (htimed : Row.Timed rows) (h : (u, .stamp s) ∈ lastSeen rows) :
    s = .naive s.wall ∧ (∃ row ∈ ofUnit rows u, row.timeCell = .stamp s) ∧
      ∀ other ∈ ofUnit rows u, Cell.le other.timeCell (.stamp s) = true := by
  obtain ⟨u', -, he⟩ := List.mem_map.mp h
  obtain ⟨rfl, htime⟩ := Prod.mk.inj he
  have hgreatest : Cell.greatest ((ofUnit rows u').map (·.timeCell)) = .stamp s := htime
  obtain ⟨row, hrow, hrowTime⟩ : ∃ row ∈ ofUnit rows u', row.timeCell = .stamp s := by
    rcases Cell.greatest_mem ((ofUnit rows u').map (·.timeCell)) with hnull | hmem
    · rw [hgreatest] at hnull
      cases hnull
    · rw [hgreatest] at hmem
      exact List.mem_map.mp hmem
  have hall := htimed row (of_mem_ofUnit hrow) s hrowTime
  have hnaive : s = .naive s.wall := by
    obtain hnull | ⟨i, hi⟩ := hall row (of_mem_ofUnit hrow)
    · rw [hrowTime] at hnull
      cases hnull
    · obtain rfl : s = .naive i := Datum.stamp.inj (hrowTime.symm.trans hi)
      rfl
  refine ⟨hnaive, ⟨row, hrow, hrowTime⟩, fun other hother => ?_⟩
  rw [← hgreatest]
  refine Cell.le_greatest (fun c hc => ?_) (List.mem_map_of_mem hother)
  obtain ⟨r, hr, rfl⟩ := List.mem_map.mp hc
  exact hall r (of_mem_ofUnit hr)

/-- Of the rows a search keeps, the one a unit is last seen with. -/
theorem latest_of_mem_lastSeen_filter {p : Row → Bool} (htimed : Row.Timed rows)
    (h : (u, .stamp s) ∈ lastSeen (rows.filter p)) :
    s = .naive s.wall ∧ (∃ row ∈ ofUnit rows u, p row = true ∧ row.timeCell = .stamp s) ∧
      ∀ other ∈ ofUnit rows u, p other = true → Cell.le other.timeCell (.stamp s) = true := by
  obtain ⟨hnaive, ⟨row, hrow, htime⟩, hlast⟩ := latest_of_mem_lastSeen (htimed.filter p) h
  rw [ofUnit_filter] at hrow hlast
  obtain ⟨hmem, hp⟩ := List.mem_filter.mp hrow
  exact ⟨hnaive, ⟨row, hmem, hp, htime⟩,
    fun other hother hkept => hlast other (List.mem_filter.mpr ⟨hother, hkept⟩)⟩

/-- A sample of a state is one of a unit that has been seen, dated with the time it was seen last. -/
theorem of_mem_stateSamples {tag : String} {seen : List (Datum × Datum)} {ss : List Sample}
    (h : stateSamples tag seen = .ok ss) {x : Sample} (hx : x ∈ ss) :
    ∃ u s, (u, Datum.stamp s) ∈ seen ∧ s.instant? = some x.time ∧
      x = ⟨u.shown, tag, .int 0, x.time, .computed, none⟩ := by
  obtain ⟨⟨u, time⟩, hseen, hsample⟩ := exists_of_mem_mapM h hx
  obtain ⟨s, rfl, hinstant, hx⟩ := Row.of_sample_ok hsample
  exact ⟨u, s, hseen, hinstant, hx⟩

end SourceReader

/-! ## What the detectors report -/

namespace Readings

/-- The digital rows. -/
def digitalRows (db : Readings) : List Row := (db.digital.map (·.rows)).getD []

/-- The tables with those digital rows only in which a tag is 0. -/
def zerosOnly (db : Readings) (tag : String) : Readings :=
  { db with digital := db.digital.map fun t =>
      { t with rows := t.rows.filter fun row => Cell.isZero (row.cell tag) } }

/-- Whether the unit of a digital row has sent nothing analog since some time. -/
def unheard (db : Readings) (since : Instant) (row : Row) : Bool :=
  !(((db.analog.map (·.rows)).getD []).filter (Cell.notBefore ·.timeCell since)).any
    (Cell.equal row.unitCell ·.unitCell)

end Readings

/-- Some of the latest rows that carry a tag show it as 0. -/
def ZeroLast (tag : String) (rows : List Row) : Prop :=
  ∃ row ∈ rows, Cell.isZero (row.cell tag) = true ∧
    ∀ other ∈ rows, (other.cell tag).isNull = false → Cell.le other.timeCell row.timeCell = true

instance (tag : String) (rows : List Row) : Decidable (ZeroLast tag rows) := by
  unfold ZeroLast
  infer_instance

/-- The states that are worked out. -/
inductive Detector where
  | communication
  | power
deriving DecidableEq, Repr

namespace Detector

def tag (D : Detector) (r : SourceReader) : String :=
  match D with
  | communication => r.computed.communication.tag
  | power => r.computed.power.tag

def enabled (D : Detector) (r : SourceReader) : Bool :=
  match D with
  | communication => r.computed.communication.enabled
  | power => r.computed.power.enabled

def find (D : Detector) (r : SourceReader) (db : Readings) (now : Instant) :
    Except Failure (List Sample) :=
  match D with
  | communication => r.communication db now
  | power => r.power db now

/-- The digital rows a detector looks at: for the communication fault those of units that have sent
nothing analog in the silence window. -/
def records (D : Detector) (r : SourceReader) (db : Readings) (now : Instant) : List Row :=
  match D with
  | communication =>
    match Span.hours r.computed.communication.analogSilenceHours with
    | .ok silence => db.digitalRows.filter (db.unheard (now - silence))
    | .error _ => []
  | power => db.digitalRows

/-- The times a detector reports a record of. -/
def Window (D : Detector) (r : SourceReader) (now i : Instant) : Prop :=
  match D with
  | communication => ∃ stale inUse,
      Span.hours r.computed.communication.staleHours = .ok stale ∧
      Span.hours r.computed.communication.decommissionHours = .ok inUse ∧
      now - inUse ≤ i ∧ i ≤ now - stale
  | power => ∃ lookback, Span.minutes r.computed.power.lookbackMinutes = .ok lookback ∧
      now - lookback ≤ i

variable {D : Detector} {r : SourceReader} {db : Readings} {now : Instant} {xs : List Sample}
  {x : Sample}

/-- Records in which the tag is not 0 do not count, whatever their time. -/
theorem find_zerosOnly (D : Detector) (r : SourceReader) (db : Readings) (now : Instant) :
    D.find r (db.zerosOnly (D.tag r)) now = D.find r db now := by
  obtain ⟨client, digital, analog, known⟩ := db
  cases digital with
  | none => rfl
  | some d =>
    obtain ⟨columns, rows, present⟩ := d
    have htwice (tag : String) (p : Row → Bool) :
        (rows.filter fun row => Cell.isZero (row.cell tag)).filter
            (fun row => Cell.isZero (row.cell tag) && p row) =
          rows.filter fun row => Cell.isZero (row.cell tag) && p row := by
      rw [List.filter_filter]
      congr 1
      funext row
      cases Cell.isZero (row.cell tag) <;> simp
    have hgiven {α β : Type} (a : α) (f : α → Except Failure β) : (Except.ok a >>= f) = f a := rfl
    cases D with
    | communication =>
      simp only [find, tag, SourceReader.communication, Readings.zerosOnly, Option.map_some,
        Readings.tables, Readings.table, ReadingTable.typeOf, ReadingTable.read]
      cases present <;> cases known <;> simp [hgiven, htwice]
    | power =>
      simp only [find, tag, SourceReader.power, Readings.zerosOnly, Option.map_some,
        Readings.tables, Readings.table, ReadingTable.typeOf, ReadingTable.read]
      cases present <;> cases known <;> simp [hgiven, htwice]

theorem of_communication_ok (h : r.communication db now = .ok xs) (hx : x ∈ xs) :
    r.computed.communication.enabled = true ∧ ∃ d silence stale inUse, db.digital = some d ∧
      Span.hours r.computed.communication.analogSilenceHours = .ok silence ∧
      Span.hours r.computed.communication.staleHours = .ok stale ∧
      Span.hours r.computed.communication.decommissionHours = .ok inUse ∧
      SourceReader.stateSamples r.computed.communication.tag
        ((SourceReader.lastSeen (d.rows.filter fun row =>
          Cell.isZero (row.cell r.computed.communication.tag) &&
            db.unheard (now - silence) row)).filter fun (_, time) =>
          Cell.notAfter time (now - stale) && Cell.notBefore time (now - inUse)) = .ok xs := by
  unfold SourceReader.communication at h
  simp only at h
  split at h
  next =>
    cases h
    cases hx
  next henabled =>
    obtain ⟨⟨d, a⟩, htables, h⟩ := bind_eq_ok_iff.mp h
    obtain ⟨hd, ha⟩ := Readings.of_tables_ok htables
    obtain ⟨-, -, h⟩ := bind_eq_ok_iff.mp h
    obtain ⟨-, -, h⟩ := bind_eq_ok_iff.mp h
    obtain ⟨-, -, h⟩ := bind_eq_ok_iff.mp h
    obtain ⟨-, -, h⟩ := bind_eq_ok_iff.mp h
    obtain ⟨silence, hsilence, h⟩ := bind_eq_ok_iff.mp h
    obtain ⟨heard, hheard, h⟩ := bind_eq_ok_iff.mp h
    obtain ⟨-, -, h⟩ := bind_eq_ok_iff.mp h
    obtain ⟨stale, hstale, h⟩ := bind_eq_ok_iff.mp h
    obtain ⟨staleFrom, hstaleFrom, h⟩ := bind_eq_ok_iff.mp h
    obtain ⟨inUse, hinUse, h⟩ := bind_eq_ok_iff.mp h
    obtain ⟨inUseFrom, hinUseFrom, h⟩ := bind_eq_ok_iff.mp h
    obtain ⟨drows, hdrows, h⟩ := bind_eq_ok_iff.mp h
    obtain ⟨arows, harows, h⟩ := bind_eq_ok_iff.mp h
    obtain rfl := Span.of_from?_ok hheard
    obtain rfl := Span.of_from?_ok hstaleFrom
    obtain rfl := Span.of_from?_ok hinUseFrom
    obtain rfl := ReadingTable.of_read_ok hdrows
    obtain rfl := ReadingTable.of_read_ok harows
    refine ⟨by simpa using henabled, d, silence, stale, inUse, hd, hsilence, hstale, hinUse, ?_⟩
    simpa only [Readings.unheard, ha, Option.map_some, Option.getD_some, Int.sub_eq_add_neg] using h

theorem of_power_ok (h : r.power db now = .ok xs) (hx : x ∈ xs) :
    r.computed.power.enabled = true ∧ ∃ d lookback, db.digital = some d ∧
      Span.minutes r.computed.power.lookbackMinutes = .ok lookback ∧
      SourceReader.stateSamples r.computed.power.tag
        (SourceReader.lastSeen (d.rows.filter fun row =>
          Cell.isZero (row.cell r.computed.power.tag) &&
            Cell.notBefore row.timeCell (now - lookback))) = .ok xs := by
  unfold SourceReader.power at h
  simp only at h
  split at h
  next =>
    cases h
    cases hx
  next henabled =>
    obtain ⟨⟨d, a⟩, htables, h⟩ := bind_eq_ok_iff.mp h
    obtain ⟨-, -, h⟩ := bind_eq_ok_iff.mp h
    obtain ⟨-, -, h⟩ := bind_eq_ok_iff.mp h
    obtain ⟨-, -, h⟩ := bind_eq_ok_iff.mp h
    obtain ⟨lookback, hlookback, h⟩ := bind_eq_ok_iff.mp h
    obtain ⟨cutoff, hcutoff, h⟩ := bind_eq_ok_iff.mp h
    obtain ⟨drows, hdrows, h⟩ := bind_eq_ok_iff.mp h
    obtain rfl := Span.of_from?_ok hcutoff
    obtain rfl := ReadingTable.of_read_ok hdrows
    refine ⟨by simpa using henabled, d, lookback, (Readings.of_tables_ok htables).1, hlookback, ?_⟩
    simpa only [Int.sub_eq_add_neg] using h

/-- A sample of a detector is dated with the latest record of its unit in which the tag is 0, and that
record is of a time the detector reports. -/
structure Reports (D : Detector) (r : SourceReader) (db : Readings) (now : Instant) (u : Datum)
    (x : Sample) : Prop where
  unit : x.unit = u.shown
  tag : x.tag = D.tag r
  value : x.value = .int 0
  kind : x.kind = .computed
  enabled : D.enabled r = true
  window : D.Window r now x.time
  times : ∀ row ∈ SourceReader.ofUnit (D.records r db now) u, Cell.Plain row.timeCell
  record : ∃ row ∈ SourceReader.ofUnit (D.records r db now) u,
    Cell.isZero (row.cell (D.tag r)) = true ∧ row.timeCell = .stamp (.naive x.time)
  last : ∀ row ∈ SourceReader.ofUnit (D.records r db now) u,
    Cell.isZero (row.cell (D.tag r)) = true → Cell.le row.timeCell (.stamp (.naive x.time)) = true

theorem reports_communication (hkept : ∀ t, db.digital = some t → t.Kept)
    (h : r.communication db now = .ok xs) (hx : x ∈ xs) :
    ∃ u, communication.Reports r db now u x := by
  obtain ⟨henabled, d, silence, stale, inUse, hd, hsilence, hstale, hinUse, h⟩ :=
    of_communication_ok h hx
  obtain ⟨u, s, hseen, hinstant, hsample⟩ := SourceReader.of_mem_stateSamples h hx
  obtain ⟨hseen, hwindow⟩ := List.mem_filter.mp hseen
  obtain ⟨hafter, hbefore⟩ := Bool.and_eq_true_iff.mp hwindow
  have htimed := (hkept d hd).timed
  obtain ⟨hnaive, ⟨row, hrow, hp, htime⟩, hlast⟩ :=
    SourceReader.latest_of_mem_lastSeen_filter htimed hseen
  obtain ⟨hzero, hunheard⟩ := Bool.and_eq_true_iff.mp hp
  have hrecords : communication.records r db now = d.rows.filter (db.unheard (now - silence)) := by
    simp [records, hsilence, Readings.digitalRows, hd]
  have hwall : s.wall = x.time := by
    rw [hnaive] at hinstant
    exact Option.some.inj hinstant
  rw [hnaive, hwall] at hafter hbefore htime hlast
  refine ⟨u, by rw [hsample], by rw [hsample]; rfl, by rw [hsample], by rw [hsample], henabled,
    ⟨stale, inUse, hstale, hinUse, Cell.notBefore_naive.mp hbefore, Cell.notAfter_naive.mp hafter⟩,
    fun other hother => ?_, ⟨row, ?_, hzero, htime⟩, fun other hother hotherZero => ?_⟩
  · rw [hrecords, SourceReader.ofUnit_filter] at hother
    exact htimed row (SourceReader.of_mem_ofUnit hrow) _ htime other
      (SourceReader.of_mem_ofUnit (List.mem_of_mem_filter hother))
  · rw [hrecords, SourceReader.ofUnit_filter]
    exact List.mem_filter.mpr ⟨hrow, hunheard⟩
  · rw [hrecords, SourceReader.ofUnit_filter] at hother
    obtain ⟨hmem, hotherUnheard⟩ := List.mem_filter.mp hother
    exact hlast other hmem (Bool.and_eq_true_iff.mpr ⟨hotherZero, hotherUnheard⟩)

theorem reports_power (hkept : ∀ t, db.digital = some t → t.Kept)
    (h : r.power db now = .ok xs) (hx : x ∈ xs) : ∃ u, power.Reports r db now u x := by
  obtain ⟨henabled, d, lookback, hd, hlookback, h⟩ := of_power_ok h hx
  obtain ⟨u, s, hseen, hinstant, hsample⟩ := SourceReader.of_mem_stateSamples h hx
  have htimed := (hkept d hd).timed
  obtain ⟨hnaive, ⟨row, hrow, hp, htime⟩, hlast⟩ :=
    SourceReader.latest_of_mem_lastSeen_filter htimed hseen
  obtain ⟨hzero, hrecent⟩ := Bool.and_eq_true_iff.mp hp
  have hrecords : power.records r db now = d.rows := by
    simp [records, Readings.digitalRows, hd]
  have hwall : s.wall = x.time := by
    rw [hnaive] at hinstant
    exact Option.some.inj hinstant
  rw [hnaive, hwall] at htime hlast
  rw [htime] at hrecent
  have hstart : now - lookback ≤ x.time := Cell.notBefore_naive.mp hrecent
  refine ⟨u, by rw [hsample], by rw [hsample]; rfl, by rw [hsample], by rw [hsample], henabled,
    ⟨lookback, hlookback, hstart⟩, ?_, ⟨row, by rwa [hrecords], hzero, htime⟩, ?_⟩
  all_goals
    intro other hother
    rw [hrecords] at hother
    have hplain : Cell.Plain other.timeCell := htimed row (SourceReader.of_mem_ofUnit hrow) _ htime
      other (SourceReader.of_mem_ofUnit hother)
  · exact hplain
  · intro hotherZero
    by_cases hotherRecent : Cell.notBefore other.timeCell (now - lookback) = true
    · exact hlast other hother (Bool.and_eq_true_iff.mpr ⟨hotherZero, hotherRecent⟩)
    -- a record from before the window is earlier than any in it
    obtain hnull | ⟨j, hj⟩ := hplain
    · rw [hnull]
      exact Cell.null_le _
    · rw [hj, Cell.notBefore_naive] at hotherRecent
      rw [hj, Cell.le_naive, decide_eq_true_iff]
      exact Int.le_trans (Int.le_of_lt (Int.not_le.mp hotherRecent)) hstart

theorem reports (hkept : ∀ t, db.digital = some t → t.Kept) (h : D.find r db now = .ok xs)
    (hx : x ∈ xs) : ∃ u, D.Reports r db now u x := by
  cases D with
  | communication => exact reports_communication hkept h hx
  | power => exact reports_power hkept h hx

/-- A sample is dated with the latest of its unit's records in which the tag is 0, and records in
which it is not 0 take no sample away. So the last record that carries the tag shows 0 just where no
other record is later than the sample. -/
theorem detected_by_last_zero (hkept : ∀ t, db.digital = some t → t.Kept)
    (h : D.find r db now = .ok xs) (hx : x ∈ xs) :
    D.find r (db.zerosOnly (D.tag r)) now = .ok xs ∧ ∃ u, D.Reports r db now u x ∧
      (ZeroLast (D.tag r) (SourceReader.ofUnit (D.records r db now) u) ↔
        ∀ row ∈ SourceReader.ofUnit (D.records r db now) u,
          (row.cell (D.tag r)).isNull = false → Cell.isZero (row.cell (D.tag r)) = false →
            Cell.le row.timeCell (.stamp (.naive x.time)) = true) := by
  obtain ⟨u, hreports⟩ := reports hkept h hx
  refine ⟨(find_zerosOnly D r db now).trans h, u, hreports, ?_, ?_⟩
  · rintro ⟨row, hrow, hzero, hlast⟩ other hother hcarries -
    have hrowLe := hreports.last row hrow hzero
    exact (hreports.times other hother).le_trans (hreports.times row hrow) (.inr ⟨_, rfl⟩)
      (hlast other hother hcarries) hrowLe
  · intro hothers
    obtain ⟨row, hrow, hzero, htime⟩ := hreports.record
    refine ⟨row, hrow, hzero, fun other hother hcarries => ?_⟩
    rw [htime]
    by_cases hotherZero : Cell.isZero (other.cell (D.tag r)) = true
    · exact hreports.last other hother hotherZero
    · exact hothers other hother hcarries (Bool.eq_false_iff.mpr hotherZero)

end Detector

/-! ## A unit that is back -/

/-- A record of unit 101, some minutes before the end of the hundredth day. -/
def statusRow (minutes : Int) (communication power : Datum) : Row :=
  [(Row.unitColumn, .int 101),
    (Row.timeColumn, .stamp (.naive (100 * Span.day - minutes * Span.minute))),
    ("Tag8", communication), ("Tag16", power)]

/-- Tables with such records and no analog ones. -/
def statusReadings (rows : List Row) : Readings :=
  ⟨"north",
    some ⟨[(Row.unitColumn, .whole), (Row.timeColumn, .stamp), ("Tag8", .whole), ("Tag16", .whole)],
      rows, true⟩,
    some ⟨[(Row.unitColumn, .whole), (Row.timeColumn, .stamp)], [], true⟩, false⟩

def standardReader : SourceReader := ⟨[], [], .standard⟩

/-- A unit that has had no communication two hours ago, and no power half an hour ago. -/
def backReadings : Readings :=
  statusReadings [statusRow 120 (.int 0) .null, statusRow 90 (.int 1) .null,
    statusRow 30 .null (.int 0), statusRow 20 .null (.int 1)]

/-- The units a detector reports with the times of their samples. -/
def Detector.found (D : Detector) (r : SourceReader) (db : Readings) (now : Instant) :
    Option (List (String × Instant)) :=
  (D.find r db now).toOption.map fun xs => xs.map fun x => (x.unit, x.time)

theorem Detector.exists_of_found {D : Detector} {r : SourceReader} {db : Readings} {now : Instant}
    {ys : List (String × Instant)} (h : D.found r db now = some ys) :
    ∃ xs, D.find r db now = .ok xs ∧ (xs.map fun x => (x.unit, x.time)) = ys := by
  unfold found at h
  cases hfind : D.find r db now with
  | error f =>
    rw [hfind] at h
    cases h
  | ok xs =>
    rw [hfind] at h
    exact ⟨xs, rfl, Option.some.inj h⟩

theorem backReadings_kept : ∀ t, backReadings.digital = some t → t.Kept := by
  intro t ht row hrow
  obtain rfl := Option.some.inj ht
  simp only [List.mem_cons, List.not_mem_nil, or_false] at hrow
  rcases hrow with rfl | rfl | rfl | rfl
  · exact ⟨[.int 101, .stamp (.naive (100 * Span.day - 120 * Span.minute)), .int 0, .null], rfl⟩
  · exact ⟨[.int 101, .stamp (.naive (100 * Span.day - 90 * Span.minute)), .int 1, .null], rfl⟩
  · exact ⟨[.int 101, .stamp (.naive (100 * Span.day - 30 * Span.minute)), .null, .int 0], rfl⟩
  · exact ⟨[.int 101, .stamp (.naive (100 * Span.day - 20 * Span.minute)), .null, .int 1], rfl⟩

/-- The unit is found without communication, though it has been back for an hour and a half, and the
sample is of the record half an hour before that. -/
theorem back_found_at_last_zero :
    (∀ t, backReadings.digital = some t → t.Kept) ∧
      ∃ xs x, Detector.communication.find standardReader backReadings (100 * Span.day) = .ok xs ∧
        x ∈ xs ∧ x.time = 100 * Span.day - 120 * Span.minute ∧
        Detector.communication.find standardReader (backReadings.zerosOnly "Tag8")
          (100 * Span.day) = .ok xs ∧
        ∃ u, Detector.communication.Reports standardReader backReadings (100 * Span.day) u x := by
  have hfound : Detector.communication.found standardReader backReadings (100 * Span.day) =
      some [("101", 100 * Span.day - 120 * Span.minute)] := by decide +kernel
  obtain ⟨xs, hfind, hmap⟩ := Detector.exists_of_found hfound
  obtain ⟨x, rfl, hx⟩ := List.map_eq_singleton_iff.mp hmap
  obtain ⟨hzeros, u, hreports, -⟩ := Detector.detected_by_last_zero backReadings_kept hfind
    (List.mem_singleton_self x)
  exact ⟨backReadings_kept, [x], x, hfind, List.mem_singleton_self x, (Prod.mk.inj hx).2, hzeros, u,
    hreports⟩

/-- Both detectors report a unit that has reported their tag as something else since. -/
theorem back_still_found :
    (Detector.communication.found standardReader backReadings (100 * Span.day) =
        some [("101", 100 * Span.day - 120 * Span.minute)] ∧
      ¬ ZeroLast "Tag8" (SourceReader.ofUnit backReadings.digitalRows (.int 101))) ∧
      Detector.power.found standardReader backReadings (100 * Span.day) =
        some [("101", 100 * Span.day - 30 * Span.minute)] ∧
      ¬ ZeroLast "Tag16" (SourceReader.ofUnit backReadings.digitalRows (.int 101)) := by
  decide +kernel

end FaultDesk
