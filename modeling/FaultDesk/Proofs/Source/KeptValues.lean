import FaultDesk.Proofs.Matching.Refusals
import FaultDesk.Proofs.Source.TableChoice

/-!
The values that come out of tables. A table keeps whole numbers of 64 bits, binary64 numbers, texts,
bytes and times, and nulls. Merging a row adds no others, and a sample is never of a null; so each value
of a sample that is read stands for a number or for none.
-/

namespace FaultDesk

/-- A value other than null that a table can keep. -/
inductive Datum.Stored : Datum → Prop
  | whole {n : Int} (held : ColumnType.holdsWhole n = true) : Stored (.int n)
  | real (d : Double) : Stored (.float d)
  | text (s : String) : Stored (.text s)
  | bytes (bs : List UInt8) : Stored (.bytes bs)
  | stamp (s : Stamp) : Stored (.stamp s)

namespace ColumnType

variable {c : ColumnType} {v w : Datum}

theorem stored_wholeIfPossible (d : Double) : (wholeIfPossible d).Stored := by
  unfold wholeIfPossible
  split
  next =>
    split
    next h => exact .whole h
    next => exact .real d
  next => exact .real d

theorem stored_of_keepText {s : String} (h : c.keepText s = .ok w) : w.Stored := by
  cases c with
  | text =>
    obtain rfl := Except.ok.inj h
    exact .text s
  | whole =>
    obtain rfl := Except.ok.inj h
    split
    next => exact stored_wholeIfPossible _
    next => exact .text s
  | real =>
    obtain rfl := Except.ok.inj h
    split
    next => exact .real _
    next => exact .text s
  | stamp => cases h

theorem stored_of_keepWhole {n : Int} (h : c.keepWhole n = .ok w) : w.Stored := by
  unfold keepWhole at h
  split at h
  next => cases h
  next hheld =>
    cases c with
    | whole =>
      obtain rfl := Except.ok.inj h
      exact .whole (by simpa using hheld)
    | real =>
      obtain rfl := Except.ok.inj h
      exact .real _
    | text =>
      obtain rfl := Except.ok.inj h
      exact .text _
    | stamp => cases h

theorem stored_of_keepDouble {d : Double} (h : c.keepDouble d = .ok w) : w = .null ∨ w.Stored := by
  unfold keepDouble at h
  split at h
  next =>
    split at h
    next => cases h
    next => exact Or.inl (Except.ok.inj h).symm
  next =>
    cases c with
    | whole =>
      obtain rfl := Except.ok.inj h
      exact Or.inr (stored_wholeIfPossible d)
    | real =>
      obtain rfl := Except.ok.inj h
      exact Or.inr (.real d)
    | text =>
      obtain rfl := Except.ok.inj h
      cases d.columnText with
      | none => exact Or.inl rfl
      | some s => exact Or.inr (.text s)
    | stamp => cases h

/-- Whatever a column keeps is null or can be kept. -/
theorem stored_of_keep (h : c.keep v = .ok w) : w = .null ∨ w.Stored := by
  cases v with
  | null => exact Or.inl (Except.ok.inj h).symm
  | truth b => exact Or.inr (stored_of_keepWhole h)
  | int n => exact Or.inr (stored_of_keepWhole h)
  | float d => exact stored_of_keepDouble h
  | text s => exact Or.inr (stored_of_keepText h)
  | date d => exact Or.inr (stored_of_keepText h)
  | bytes bs =>
    simp only [keep] at h
    split at h
    next => cases h
    next =>
      obtain rfl := Except.ok.inj h
      exact Or.inr (.bytes bs)
  | stamp s =>
    simp only [keep] at h
    split at h
    next =>
      obtain rfl := Except.ok.inj h
      exact Or.inr (.stamp _)
    next => exact Or.inr (stored_of_keepText h)
  | decimal d => cases h
  | list items => cases h
  | tuple items => cases h
  | set items => cases h
  | mapping entries => cases h

end ColumnType

/-! ## Rows and samples -/

namespace Row

/-- A row of values that can be kept, and of nulls. -/
def Stored (row : Row) : Prop := ∀ e ∈ row, e.2 = .null ∨ e.2.Stored

variable {row : Row} {analogTags tags : List String}

theorem Stored.append {d a : Row} (hd : d.Stored) (ha : a.Stored) : (d ++ a : Row).Stored := by
  intro e he
  rcases List.mem_append.mp he with he | he
  · exact hd e he
  · exact ha e he

theorem Stored.cell (h : row.Stored) (column : String) :
    row.cell column = .null ∨ (row.cell column).Stored := by
  unfold Row.cell
  cases hlookup : row.lookup column with
  | none => exact Or.inl rfl
  | some v =>
    obtain ⟨before, after, hsplit, -⟩ := List.lookup_eq_some_iff.mp hlookup
    exact h (column, v) (by simp [hsplit])

theorem Stored.analogPart (h : row.Stored) (columns : List String) :
    (ReadingTable.analogPart columns row).Stored := by
  intro e he
  obtain ⟨column, -, rfl⟩ := List.mem_map.mp he
  exact h.cell column

theorem Stored.put (h : row.Stored) {v : Datum} (hv : v = .null ∨ v.Stored) (column : String) :
    (row.put column v).Stored := by
  induction row with
  | nil =>
    intro e he
    rw [List.mem_singleton.mp he]
    exact hv
  | cons first rest ih =>
    obtain ⟨hfirst, hrest⟩ := List.forall_mem_cons.mp h
    unfold Row.put
    split
    next => exact List.forall_mem_cons.mpr ⟨hv, hrest⟩
    next => exact List.forall_mem_cons.mpr ⟨hfirst, ih hrest⟩

theorem Stored.takeOver (h : row.Stored) {entry : String × Datum}
    (hentry : entry.2 = .null ∨ entry.2.Stored) : (Row.takeOver analogTags row entry).Stored := by
  unfold Row.takeOver
  split
  next => exact h
  next =>
    split
    next => exact h
    next =>
      split
      next => exact h.put hentry _
      next => exact h

/-- Merging moves values about and makes none. -/
theorem Stored.merge (h : row.Stored) (analogTags : List String) : (row.merge analogTags).Stored := by
  unfold Row.merge
  refine List.foldlRecOn (motive := Row.Stored) row _ h fun merged hmerged e he => ?_
  exact hmerged.takeOver (h e he)

theorem Stored.value? (h : row.Stored) {column : String} {v : Datum}
    (hv : row.value? column = some v) : v.Stored := by
  obtain ⟨hlookup, hnull⟩ := value?_eq_some_iff.mp hv
  obtain ⟨before, after, hsplit, -⟩ := List.lookup_eq_some_iff.mp hlookup
  refine (h (column, v) (by simp [hsplit])).resolve_left ?_
  rintro rfl
  cases hnull

end Row

namespace ReadingTable

theorem Kept.stored {t : ReadingTable} (h : t.Kept) {row : Row} (hrow : row ∈ t.rows) :
    row.Stored := by
  obtain ⟨values, hkept⟩ := h row hrow
  intro e he
  obtain ⟨c, v, -, hcell⟩ := keptRow_entry hkept he
  exact ColumnType.stored_of_keep hcell

theorem stored_of_mem_join {columns : List String} {digital analog : List Row} {row : Row}
    (hdigital : ∀ d ∈ digital, d.Stored) (hanalog : ∀ a ∈ analog, a.Stored)
    (h : row ∈ join columns digital analog) : row.Stored := by
  obtain ⟨d, hd, hrow⟩ := List.mem_flatMap.mp h
  split at hrow
  next =>
    rw [List.mem_singleton.mp hrow]
    exact (hdigital d hd).append (Row.Stored.analogPart (by simp [Row.Stored]) columns)
  next ms hms =>
    obtain ⟨a, ha, rfl⟩ := List.mem_map.mp hrow
    exact (hdigital d hd).append ((hanalog a (List.mem_of_mem_filter ha)).analogPart columns)

end ReadingTable

namespace Readings

variable {db : Readings} {row : Row}

theorem Kept.stored (h : db.Kept) (hrow : row ∈ db.joined) : row.Stored := by
  unfold joined at hrow
  split at hrow
  next d a hd ha =>
    exact ReadingTable.stored_of_mem_join (fun _ => (h.digital d hd).stored)
      (fun _ => (h.analog a ha).stored) hrow
  next => cases hrow

end Readings

namespace SourceReader

variable {r : SourceReader} {row : Row} {s : Sample}

theorem exploded_of_mem_samplesOfRow (h : s ∈ r.samplesOfRow row) :
    ∃ ss, r.exploded row = .ok ss ∧ s ∈ ss := by
  unfold samplesOfRow at h
  cases hss : r.exploded row with
  | error e => simp [hss, Except.toOption] at h
  | ok ss => exact ⟨ss, rfl, by simpa [hss, Except.toOption] using h⟩

theorem stored_of_mem_samplesOfRow (hrow : row.Stored) (h : s ∈ r.samplesOfRow row) :
    s.value.Stored := by
  obtain ⟨ss, hss, hs⟩ := exploded_of_mem_samplesOfRow h
  exact (hrow.merge r.analogTags).value? (Row.of_mem_explode hss hs).2

end SourceReader

/-! ## Comparing stored values -/

namespace Datum

variable {v : Datum}

theorem Stored.ne_null (h : v.Stored) : v ≠ .null := by
  rintro rfl
  cases h

/-- A stored value stands for a number or for none. -/
theorem Stored.readable (h : v.Stored) : v.Readable := by
  intro e hunreadable
  rcases unreadable_iff.mp hunreadable with ⟨n, rfl, hlarge, -⟩ | ⟨negative, payload, rfl, -⟩
  · cases h with
    | whole held =>
      have hbounds : -(Nat.pow 2 63 : Int) ≤ n ∧ n < Nat.pow 2 63 := of_decide_eq_true held
      have hfew : Nat.pow 2 63 < (2 ^ 54 - 1) * 2 ^ 970 := by decide +kernel
      omega
  · cases h

theorem Stored.not_unwritable (h : v.Stored) : ¬ v.Unwritable := by
  rintro ⟨hnot, hlong⟩
  cases h with
  | whole => exact hnot _ rfl
  | _ => cases hlong

end Datum

end FaultDesk
