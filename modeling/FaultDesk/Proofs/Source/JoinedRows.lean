import FaultDesk.Proofs.Outcome
import FaultDesk.Source.Reader

/-!
The joined rows of two tables of readings. Rows that are later than all others join with each other
only, and so leave the joined rows as they are and add some.
-/

namespace FaultDesk

/-! ## Rows as a table keeps them -/

namespace ColumnType

theorem wholeIfPossible_ne_stamp (d : Double) (s : Stamp) : wholeIfPossible d ≠ .stamp s := by
  unfold wholeIfPossible
  split
  · split <;> simp
  · simp

theorem keepText_ne_stamp (c : ColumnType) (t : String) (s : Stamp) :
    c.keepText t ≠ .ok (.stamp s) := by
  unfold keepText
  cases c
  case text => simp
  case stamp => simp
  all_goals
    cases numeral? t with
    | none => simp
    | some n => simp [wholeIfPossible_ne_stamp]

theorem keepWhole_ne_stamp (c : ColumnType) (n : Int) (s : Stamp) :
    c.keepWhole n ≠ .ok (.stamp s) := by
  unfold keepWhole
  split
  · simp
  · cases c <;> simp

theorem keepDouble_ne_stamp (c : ColumnType) (d : Double) (s : Stamp) :
    c.keepDouble d ≠ .ok (.stamp s) := by
  unfold keepDouble
  split
  · split <;> simp
  · cases c with
    | whole => simp [wholeIfPossible_ne_stamp]
    | text => cases d.columnText <;> simp [Datum.ofText?]
    | real => simp
    | stamp => simp

/-- Only a column of times keeps times, and it keeps no offset. -/
theorem keep_stamp {c : ColumnType} {v : Datum} {s : Stamp} (h : c.keep v = .ok (.stamp s)) :
    c = .stamp ∧ s.offset = none := by
  cases v with
  | stamp s' =>
    simp only [keep] at h
    split at h
    next hc =>
      cases h
      exact ⟨hc, rfl⟩
    next => exact absurd h (keepText_ne_stamp c _ s)
  | truth b => exact absurd h (keepWhole_ne_stamp c _ s)
  | int n => exact absurd h (keepWhole_ne_stamp c n s)
  | text t => exact absurd h (keepText_ne_stamp c t s)
  | date d => exact absurd h (keepText_ne_stamp c d.text s)
  | float d => exact absurd h (keepDouble_ne_stamp c d s)
  | bytes bs =>
    simp only [keep] at h
    split at h <;> cases h
  | null => cases h
  | decimal d => cases h
  | list items => cases h
  | tuple items => cases h
  | set items => cases h
  | mapping entries => cases h

end ColumnType

namespace ReadingTable

variable {t : ReadingTable} {row : Row} {values : List Datum}

theorem of_read_ok {rows : List Row} (h : t.read = .ok rows) : rows = t.rows := by
  unfold read at h
  split at h
  next => exact (Except.ok.inj h).symm
  next => cases h

/-- Whether the table has kept all its rows. -/
def Kept (t : ReadingTable) : Prop := ∀ row ∈ t.rows, ∃ values, t.keptRow values = .ok row

/-- The table with more rows. -/
def adding (t : ReadingTable) (more : List Row) : ReadingTable := { t with rows := t.rows ++ more }

/-- An entry of a kept row is what a column of the table keeps of some value. -/
theorem keptRow_entry (h : t.keptRow values = .ok row) {e : String × Datum} (he : e ∈ row) :
    ∃ c v, (e.1, c) ∈ t.columns ∧ c.keep v = .ok e.2 := by
  obtain ⟨⟨⟨name, type⟩, i⟩, hcolumn, hkept⟩ := exists_of_mem_mapM h he
  have hmem : (name, type) ∈ t.columns := List.fst_mem_of_mem_zipIdx hcolumn
  cases hcell : type.keep (values.getD i .null) with
  | error f =>
    simp only [hcell] at hkept
    cases hkept
  | ok v =>
    simp only [hcell] at hkept
    cases hkept
    exact ⟨type, _, hmem, hcell⟩

/-- A kept row shows its time without an offset. -/
theorem naive_of_keptRow {s : Stamp} (h : t.keptRow values = .ok row)
    (htime : row.timeCell = .stamp s) : s.offset = none := by
  obtain ⟨v, hlookup, hv⟩ : ∃ v, row.lookup Row.timeColumn = some v ∧ v = .stamp s := by
    unfold Row.timeCell Row.cell at htime
    cases hlookup : row.lookup Row.timeColumn with
    | none => rw [hlookup] at htime; cases htime
    | some v => rw [hlookup] at htime; exact ⟨v, rfl, htime⟩
  obtain ⟨before, after, hsplit, -⟩ := List.lookup_eq_some_iff.mp hlookup
  have hmem : (Row.timeColumn, v) ∈ row := by simp [hsplit]
  obtain ⟨c, x, -, hkeep⟩ := keptRow_entry h hmem
  rw [hv] at hkeep
  exact (ColumnType.keep_stamp hkeep).2

end ReadingTable

/-! ## Times of joined rows -/

namespace Row

variable {row d : Row} {columns : List String}

/-- A sample is made of a time only, and has what it is made of. -/
theorem of_sample_ok {unit tag : String} {value time : Datum} {kind : SourceKind} {r : Option Row}
    {s : Sample} (h : sample unit tag value time kind r = .ok s) :
    ∃ st, time = .stamp st ∧ st.instant? = some s.time ∧
      s = ⟨unit, tag, value, s.time, kind, r⟩ := by
  unfold sample at h
  split at h
  next st =>
    unfold Sample.ofValues at h
    split at h
    next t ht =>
      cases h
      exact ⟨st, rfl, ht, rfl⟩
    next => cases h
  next => cases h

/-- The analog part of a joined row does not hide the time of the digital one. -/
theorem timeCell_joined (d a : Row) (columns : List String) :
    (d ++ ReadingTable.analogPart columns a).timeCell = d.timeCell := by
  have hnone : (ReadingTable.analogPart columns a).lookup timeColumn = none := by
    refine List.lookup_eq_none_iff.mpr ?_
    intro e he
    obtain ⟨c, -, rfl⟩ := List.mem_map.mp he
    simp [timeColumn, analogMark, ← String.toList_inj]
  simp [timeCell, cell, List.lookup_append, hnone]

end Row

namespace Cell

variable {a b : Datum} {i : Instant}

theorem sameStamp_naive {s : Stamp} (h : Datum.sameStamp s (.naive i) = true) : s = .naive i := by
  obtain ⟨wall, offset⟩ := s
  cases offset with
  | none => simpa [Datum.sameStamp, Stamp.naive] using h
  | some o => simp [Datum.sameStamp, Stamp.naive] at h

theorem eq_of_equal_naive (h : equal a (.stamp (.naive i)) = true) : a = .stamp (.naive i) := by
  cases a with
  | stamp s => exact congrArg Datum.stamp (sameStamp_naive (by simpa [equal, Datum.same] using h))
  | text t => simp [equal, number?] at h
  | null => simp [equal] at h
  | _ => simp [equal, Datum.same, Datum.measure?] at h

theorem eq_of_naive_equal (h : equal (.stamp (.naive i)) a = true) : a = .stamp (.naive i) := by
  cases a with
  | stamp s =>
    have hsame : Datum.sameStamp s (.naive i) = true := by
      have h' : Datum.sameStamp (.naive i) s = true := by simpa [equal, Datum.same] using h
      obtain ⟨wall, offset⟩ := s
      cases offset with
      | none =>
        simp only [Datum.sameStamp, Stamp.naive, beq_iff_eq] at h' ⊢
        exact h'.symm
      | some o => simp [Datum.sameStamp, Stamp.naive] at h'
    exact congrArg Datum.stamp (sameStamp_naive hsame)
  | text t => simp [equal, number?] at h
  | null => simp [equal] at h
  | _ => simp [equal, Datum.same] at h

theorem isAfter_naive {t : Instant} : isAfter (.stamp (.naive i)) t = true ↔ t < i := by
  have hle : le (.stamp (.naive i)) (.stamp (.naive t)) = decide (i ≤ t) := rfl
  simp [isAfter, notAfter, hle, Datum.isNull]

end Cell

/-! ## Joined rows -/

namespace ReadingTable

variable {columns : List String} {digital digital' analog analog' : List Row}

theorem exists_of_mem_join {row : Row} (h : row ∈ join columns digital analog) :
    ∃ d ∈ digital, ∃ a, row = d ++ analogPart columns a := by
  obtain ⟨d, hd, hrow⟩ := List.mem_flatMap.mp h
  split at hrow
  next => exact ⟨d, hd, [], List.mem_singleton.mp hrow⟩
  next =>
    obtain ⟨a, -, rfl⟩ := List.mem_map.mp hrow
    exact ⟨d, hd, a, rfl⟩

/-- Rows that do not match those of before join with each other only. -/
theorem join_append (hold : ∀ d ∈ digital, ∀ a ∈ analog', d.matches? a = false)
    (hnew : ∀ d ∈ digital', ∀ a ∈ analog, d.matches? a = false) :
    join columns (digital ++ digital') (analog ++ analog') =
      join columns digital analog ++ join columns digital' analog' := by
  unfold join
  rw [List.flatMap_append]
  congr 1
  · refine List.flatMap_congr fun d hd => ?_
    have hnone : analog'.filter d.matches? = [] :=
      List.filter_eq_nil_iff.mpr fun a ha => by simp [hold d hd a ha]
    rw [List.filter_append, hnone, List.append_nil]
  · refine List.flatMap_congr fun d hd => ?_
    have hnone : analog.filter d.matches? = [] :=
      List.filter_eq_nil_iff.mpr fun a ha => by simp [hnew d hd a ha]
    rw [List.filter_append, hnone, List.nil_append]

end ReadingTable

namespace Readings

variable {db db' : Readings} {now now' : Instant} {newDigital newAnalog : List Row}

theorem of_table_ok {x : Option ReadingTable} {name : String} {t : ReadingTable}
    (h : db.table x name = .ok t) : x = some t := by
  unfold table at h
  split at h
  next =>
    split at h
    next => exact congrArg some (Except.ok.inj h)
    next => cases h
  next => cases h

theorem of_tables_ok {d a : ReadingTable} (h : db.tables = .ok (d, a)) :
    db.digital = some d ∧ db.analog = some a := by
  obtain ⟨d', hd, h⟩ := bind_eq_ok_iff.mp h
  obtain ⟨a', ha, h⟩ := bind_eq_ok_iff.mp h
  cases h
  exact ⟨of_table_ok hd, of_table_ok ha⟩

/-- The rows of both tables. -/
def rows (db : Readings) : List Row :=
  (db.digital.map (·.rows)).getD [] ++ (db.analog.map (·.rows)).getD []

/-- The joined rows, whether or not they can be read. -/
def joined (db : Readings) : List Row :=
  match db.digital, db.analog with
  | some d, some a => ReadingTable.join a.tagColumns d.rows a.rows
  | _, _ => []

/-- Both tables have kept all their rows. -/
structure Kept (db : Readings) : Prop where
  digital : ∀ t, db.digital = some t → t.Kept
  analog : ∀ t, db.analog = some t → t.Kept

/-- Both tables have kept their rows, and none is of a time to come. -/
structure Settled (db : Readings) (now : Instant) : Prop where
  digital : ∀ t, db.digital = some t → t.Kept
  analog : ∀ t, db.analog = some t → t.Kept
  past : ∀ row ∈ db.rows, ∀ i, row.timeCell = .stamp (.naive i) → i ≤ now

/-- Rows have come into the tables that are later than all others, though not of a time to come. -/
structure Grown (db db' : Readings) (now : Instant) (newDigital newAnalog : List Row) : Prop where
  client : db'.client = db.client
  digital : db'.digital = db.digital.map (·.adding newDigital)
  analog : db'.analog = db.analog.map (·.adding newAnalog)
  digitalKept : ∀ t, db.digital = some t → ∀ row ∈ newDigital, ∃ values, t.keptRow values = .ok row
  analogKept : ∀ t, db.analog = some t → ∀ row ∈ newAnalog, ∃ values, t.keptRow values = .ok row
  later : ∀ row ∈ newDigital ++ newAnalog, ∃ i, row.timeCell = .stamp (.naive i) ∧ i ≤ now ∧
    ∀ old ∈ db.rows, ∀ j, old.timeCell = .stamp (.naive j) → j < i

/-- No row has to come in. -/
theorem grown_nil (db : Readings) (now : Instant) : db.Grown db now [] [] := by
  have hadding (t : ReadingTable) : t.adding [] = t := by simp [ReadingTable.adding]
  refine ⟨rfl, ?_, ?_, ?_, ?_, ?_⟩
  · cases db.digital <;> simp [hadding]
  · cases db.analog <;> simp [hadding]
  all_goals simp

theorem Grown.mem_rows (h : db.Grown db' now newDigital newAnalog) {row : Row} (hrow : row ∈ db'.rows) :
    row ∈ db.rows ∨ row ∈ newDigital ++ newAnalog := by
  unfold rows at hrow ⊢
  rw [h.digital, h.analog] at hrow
  cases hd : db.digital <;> cases ha : db.analog <;>
    simp only [hd, ha, Option.map_none, Option.map_some, Option.getD_none, Option.getD_some,
      ReadingTable.adding, List.mem_append] at hrow ⊢ <;> tauto

theorem Grown.mem_rows_of_mem (h : db.Grown db' now newDigital newAnalog) {row : Row}
    (hrow : row ∈ db.rows) : row ∈ db'.rows := by
  unfold rows at hrow ⊢
  rw [h.digital, h.analog]
  cases hd : db.digital <;> cases ha : db.analog <;>
    simp only [hd, ha, Option.map_none, Option.map_some, Option.getD_none, Option.getD_some,
      ReadingTable.adding, List.mem_append] at hrow ⊢ <;> tauto

theorem Settled.grown (h : db.Settled now) (hnow : now ≤ now')
    (hgrown : db.Grown db' now' newDigital newAnalog) : db'.Settled now' := by
  have hkept {t : ReadingTable} {more : List Row} (ht : t.Kept)
      (hmore : ∀ row ∈ more, ∃ values, t.keptRow values = .ok row) : (t.adding more).Kept := by
    intro row hrow
    rcases List.mem_append.mp hrow with hold | hnew
    · exact ht row hold
    · exact hmore row hnew
  refine ⟨?_, ?_, ?_⟩
  · intro t' ht'
    rw [hgrown.digital] at ht'
    obtain ⟨t, ht, rfl⟩ := Option.map_eq_some_iff.mp ht'
    exact hkept (h.digital t ht) (hgrown.digitalKept t ht)
  · intro t' ht'
    rw [hgrown.analog] at ht'
    obtain ⟨t, ht, rfl⟩ := Option.map_eq_some_iff.mp ht'
    exact hkept (h.analog t ht) (hgrown.analogKept t ht)
  · intro row hrow i hi
    rcases hgrown.mem_rows hrow with hold | hnew
    · exact Int.le_trans (h.past row hold i hi) hnow
    · obtain ⟨j, hj, hle, -⟩ := hgrown.later row hnew
      rw [hi] at hj
      cases hj
      exact hle

/-- A joined row has the time of a row of the digital table. -/
theorem exists_of_mem_joined {row : Row} (h : row ∈ db.joined) :
    ∃ t d, db.digital = some t ∧ d ∈ t.rows ∧ row.timeCell = d.timeCell := by
  unfold joined at h
  split at h
  next t _ ht _ =>
    obtain ⟨d, hd, a, rfl⟩ := ReadingTable.exists_of_mem_join h
    exact ⟨t, d, ht, hd, Row.timeCell_joined d a _⟩
  next => cases h

/-- A joined row has no time with an offset. -/
theorem Kept.naive (h : db.Kept) {row : Row} (hrow : row ∈ db.joined) {s : Stamp}
    (hs : row.timeCell = .stamp s) : s = .naive s.wall := by
  obtain ⟨t, d, ht, hd, htime⟩ := exists_of_mem_joined hrow
  obtain ⟨values, hkept⟩ := h.digital t ht d hd
  have hoffset := ReadingTable.naive_of_keptRow hkept (htime ▸ hs)
  obtain ⟨wall, offset⟩ := s
  obtain rfl : offset = none := hoffset
  rfl

theorem Settled.kept (h : db.Settled now) : db.Kept := ⟨h.digital, h.analog⟩

/-- Later rows add joined rows of their times. -/
theorem Grown.joined (h : db.Grown db' now newDigital newAnalog) :
    ∃ new, db'.joined = db.joined ++ new ∧ ∀ row ∈ new, ∃ i, row.timeCell = .stamp (.naive i) ∧
      ∀ old ∈ db.rows, ∀ j, old.timeCell = .stamp (.naive j) → j < i := by
  cases hd : db.digital with
  | none => exact ⟨[], by simp [Readings.joined, h.digital, hd], by simp⟩
  | some d =>
    cases ha : db.analog with
    | none => exact ⟨[], by simp [Readings.joined, h.digital, h.analog, hd, ha], by simp⟩
    | some a =>
      have hdrows : ∀ row ∈ d.rows, row ∈ db.rows := fun row hrow => by simp [rows, hd, hrow]
      have harows : ∀ row ∈ a.rows, row ∈ db.rows := fun row hrow => by simp [rows, ha, hrow]
      refine ⟨ReadingTable.join a.tagColumns newDigital newAnalog, ?_, ?_⟩
      · have hold : ∀ x ∈ d.rows, ∀ y ∈ newAnalog, x.matches? y = false := by
          intro x hx y hy
          obtain ⟨i, hi, -, hlater⟩ := h.later y (List.mem_append_right _ hy)
          refine Bool.eq_false_iff.mpr fun hmatch => ?_
          have htime := (Bool.and_eq_true_iff.mp hmatch).2
          rw [hi] at htime
          exact Int.lt_irrefl i (hlater x (hdrows x hx) i (Cell.eq_of_equal_naive htime))
        have hnew : ∀ x ∈ newDigital, ∀ y ∈ a.rows, x.matches? y = false := by
          intro x hx y hy
          obtain ⟨i, hi, -, hlater⟩ := h.later x (List.mem_append_left _ hx)
          refine Bool.eq_false_iff.mpr fun hmatch => ?_
          have htime := (Bool.and_eq_true_iff.mp hmatch).2
          rw [hi] at htime
          exact Int.lt_irrefl i (hlater y (harows y hy) i (Cell.eq_of_naive_equal htime))
        simp only [Readings.joined, h.digital, h.analog, hd, ha, Option.map_some]
        exact ReadingTable.join_append hold hnew
      · intro row hrow
        obtain ⟨x, hx, y, rfl⟩ := ReadingTable.exists_of_mem_join hrow
        obtain ⟨i, hi, -, hlater⟩ := h.later x (List.mem_append_left _ hx)
        exact ⟨i, by rw [Row.timeCell_joined, hi], hlater⟩

end Readings

end FaultDesk
