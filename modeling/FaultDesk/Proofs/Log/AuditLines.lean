import FaultDesk.Log.Audit
import FaultDesk.Proofs.Json.ReadBack

/-!
Audit files. A call adds one line to the file of its kind and day, and nothing that a record holds can
break the line: it is printable, it ends where the only line feed stands, and the record is read back from
it with the time of writing. Any number of calls leave every file with a line for each of its calls.
-/

namespace FaultDesk

open Datum (Loggable entriesOf)

namespace AuditRecord

variable {r : AuditRecord} {written : Stamp} {today : Date} {files : AuditFiles} {line name : String}

/-! ## What is written -/

/-- The fields of the whole object: the timestamp and the other fields of the record. -/
def stampedFields (r : AuditRecord) (written : Stamp) : List (String × Datum) :=
  (timestamp, (r.entries.lookup timestamp).getD (.text written.text)) :: r.entries.filter (·.1 ≠ timestamp)

theorem stamped_eq (r : AuditRecord) (written : Stamp) :
    r.stamped written = .object (r.stampedFields written) := rfl

theorem stamped_loggable (h : Loggable (.object r.entries)) (written : Stamp) :
    Loggable (r.stamped written) := by
  obtain ⟨hkeys, hfields⟩ := h.of_object
  rw [stamped_eq]
  refine .object ?_ ?_
  · refine List.nodup_cons.mpr ⟨?_, hkeys.sublist (List.filter_sublist.map _)⟩
    simp
  · intro e he
    rcases List.mem_cons.mp he with rfl | he
    · cases hown : r.entries.lookup timestamp with
      | none => exact .text written.text
      | some v => exact hfields (timestamp, v) ((lookup_eq_some_iff_of_nodup hkeys).mp hown)
    · exact hfields e (List.mem_of_mem_filter he)

/-- The whole object has the fields of the record, and the time of writing unless the record has a
timestamp of its own. -/
theorem lookup_stampedFields (r : AuditRecord) (written : Stamp) (key : String) :
    Datum.lookup key (entriesOf (r.stampedFields written)) =
      (r.entries.lookup key).or (if key = timestamp then some (.text written.text) else none) := by
  rw [stampedFields, Datum.lookup_cons, Datum.lookup_filter (· ≠ timestamp), Datum.lookup_entriesOf]
  by_cases hkey : key = timestamp
  · subst hkey
    rw [if_pos rfl, if_pos rfl]
    cases r.entries.lookup timestamp <;> rfl
  · rw [if_neg (Ne.symm hkey), if_pos (decide_eq_true hkey), if_neg hkey, Option.or_none]

/-- What a line of an audit file says: it is printable, and holds an object with the fields of the record
as they come back, and the time of writing unless the record has a timestamp of its own. -/
structure IsLineOf (r : AuditRecord) (written : Stamp) (line : String) : Prop where
  printable : ∀ c ∈ line.toList, isPrintable c = true
  decoded : ∃ es, Datum.ofJson? line = some (.mapping es) ∧ ∀ key, Datum.lookup key es =
    ((r.entries.lookup key).map Datum.logged).or
      (if key = timestamp then some (.text written.text) else none)

theorem exists_line (h : Loggable (.object r.entries)) (written : Stamp) :
    ∃ line, r.line written = .ok line ∧ r.IsLineOf written line := by
  obtain ⟨cs, hcs, hspelled⟩ := (stamped_loggable h written).spelled
  have hback : Datum.ofJson? (String.ofList cs) =
      some (.mapping (Datum.loggedEntries (entriesOf (r.stampedFields written)))) :=
    Datum.ofJson?_spelled hspelled
  refine ⟨String.ofList cs, ?_, ?_, _, hback, fun key => ?_⟩
  · rw [line, Datum.json, hcs]
    rfl
  · rw [String.toList_ofList]
    exact hspelled.printable
  · rw [Datum.lookup_loggedEntries, lookup_stampedFields, Option.map_or]
    congr 1
    split <;> rfl

/-! ## One call -/

theorem append_own (hline : r.line written = .ok line) (today : Date) (files : AuditFiles) :
    r.append written today files (r.kind.fileName today) =
      files (r.kind.fileName today) ++ line ++ "\n" := by
  rw [append, hline]
  exact if_pos rfl

theorem append_other (hname : name ≠ r.kind.fileName today) :
    r.append written today files name = files name := by
  unfold append
  cases r.line written with
  | error _ => rfl
  | ok line => exact if_neg hname

/-- A call adds one line to the file of its kind and day, and leaves the other files alone. The line is
printable, and the record is read back from it. -/
theorem one_line_appended (r : AuditRecord) (written : Stamp) (today : Date) (files : AuditFiles)
    (h : Loggable (.object r.entries)) :
    ∃ line,
      r.append written today files (r.kind.fileName today) =
        files (r.kind.fileName today) ++ line ++ "\n" ∧
      (∀ name, name ≠ r.kind.fileName today → r.append written today files name = files name) ∧
      (∀ c ∈ line.toList, isPrintable c = true) ∧
      ∃ es, Datum.ofJson? line = some (.mapping es) ∧ ∀ key, Datum.lookup key es =
        ((r.entries.lookup key).map Datum.logged).or
          (if key = timestamp then some (.text written.text) else none) := by
  obtain ⟨line, hline, hprintable, hdecoded⟩ := exists_line h written
  exact ⟨line, append_own hline today files, fun _ => append_other, hprintable, hdecoded⟩

/-- A record whose note looks like the end of its line and another line. -/
def twoLines : AuditRecord :=
  ⟨.skipped, [("note", .text "stop\"\x7d\n\x7b\"tag\": \"Tag8"), ("level", .decimal (.finite false 150 (-2))),
    ("rows", .list [.date ⟨2024, 2, 29⟩, .object [("unit", .int (-101)), ("lamp", .truth true)]])]⟩

theorem twoLines_appended :
    Loggable (.object twoLines.entries) ∧
      ∃ line, twoLines.append ⟨0, none⟩ ⟨2024, 3, 1⟩ (fun _ => "") "skipped_faults_2024-03-01.log" =
          line ++ "\n" ∧ '\n' ∉ line.toList ∧
        ∃ es, Datum.ofJson? line = some (.mapping es) ∧
          Datum.lookup "note" es = some (.text "stop\"\x7d\n\x7b\"tag\": \"Tag8") ∧
          Datum.lookup "level" es = some (.float (.ofDecimal false 15 (-1))) ∧
          Datum.lookup "timestamp" es = some (.text "0001-01-01T00:00:00") ∧
          Datum.lookup "tag" es = none := by
  have hrow : Loggable (.object [("unit", .int (-101)), ("lamp", .truth true)]) := by
    refine .object (by decide) ?_
    simp only [List.forall_mem_cons]
    exact ⟨.int (by decide +kernel), .truth true, by simp⟩
  have hloggable : Loggable (.object twoLines.entries) := by
    refine .object (by decide) ?_
    simp only [entries, twoLines, List.forall_mem_cons]
    refine ⟨.text _, .decimal rfl (by decide +kernel), .list ?_, by simp⟩
    simp only [List.forall_mem_cons]
    exact ⟨.date _, hrow, by simp⟩
  obtain ⟨line, hfile, -, hprintable, es, hback, hlookup⟩ :=
    one_line_appended twoLines ⟨0, none⟩ ⟨2024, 3, 1⟩ (fun _ => "") hloggable
  have hname : twoLines.kind.fileName ⟨2024, 3, 1⟩ = "skipped_faults_2024-03-01.log" := by decide +kernel
  have hlevel : Double.ofDecimal false 150 (-2) = .ofDecimal false 15 (-1) := by decide +kernel
  have hstamp : (⟨0, none⟩ : Stamp).text = "0001-01-01T00:00:00" := by decide +kernel
  rw [hname, String.empty_append] at hfile
  refine ⟨hloggable, line, hfile, fun hmem => ?_, es, hback, ?_, ?_, ?_, ?_⟩
  · exact absurd (hprintable _ hmem) (by decide)
  · rw [hlookup]
    rfl
  · rw [hlookup, ← hlevel]
    rfl
  · rw [hlookup, hstamp]
    rfl
  · rw [hlookup]
    rfl

end AuditRecord

/-! ## Many calls -/

/-- A record with the time and the day of its call. -/
structure AuditCall where
  record : AuditRecord
  written : Stamp
  today : Date

namespace AuditCall

def file (c : AuditCall) : String := c.record.kind.fileName c.today

/-- The line of the call. -/
def line? (c : AuditCall) : Option String := (c.record.line c.written).toOption

/-- The files after calls, one after another. -/
def run (calls : List AuditCall) (files : AuditFiles) : AuditFiles :=
  calls.foldl (fun files c => c.record.append c.written c.today files) files

variable {calls : List AuditCall} {name : String}

theorem append_eq (c : AuditCall) (files : AuditFiles) (name : String) :
    c.record.append c.written c.today files name =
      files name ++ String.join (((if c.file = name then c.line? else none).toList).map (· ++ "\n")) := by
  by_cases hname : c.file = name
  · subst hname
    cases hline : c.record.line c.written with
    | error f =>
      rw [if_pos rfl, line?, hline, AuditRecord.append, hline]
      exact String.append_empty.symm
    | ok line =>
      rw [if_pos rfl, line?, hline]
      refine (AuditRecord.append_own hline c.today files).trans ?_
      rw [String.append_assoc]
      rfl
  · rw [if_neg hname, AuditRecord.append_other (Ne.symm hname)]
    exact String.append_empty.symm

/-- A file gets the lines of its own calls, in their order. -/
theorem run_eq (calls : List AuditCall) (files : AuditFiles) (name : String) :
    run calls files name =
      files name ++ String.join (((calls.filter (·.file = name)).filterMap line?).map (· ++ "\n")) := by
  induction calls generalizing files with
  | nil => exact String.append_empty.symm
  | cons c calls ih =>
    rw [run, List.foldl_cons]
    refine (ih _).trans ?_
    rw [append_eq, String.append_assoc, ← String.join_append, ← List.map_append]
    congr 3
    -- the line of the first call, if it has one in this file, stands in front of the others
    by_cases hname : c.file = name
    · rw [if_pos hname, List.filter_cons_of_pos (by simpa using hname)]
      cases hline : c.line? <;> simp [hline]
    · rw [if_neg hname, List.filter_cons_of_neg (by simpa using hname)]
      rfl

/-- Calls that can all be written leave in every file a line for each of its calls, behind what the file
held; a line feed stands at the end of each line and nowhere else. -/
theorem run_lines (h : ∀ c ∈ calls, Loggable (.object c.record.entries)) (files : AuditFiles)
    (name : String) :
    ∃ lines, List.Forall₂ (fun c line => c.record.IsLineOf c.written line)
        (calls.filter (·.file = name)) lines ∧
      run calls files name = files name ++ String.join (lines.map (· ++ "\n")) := by
  rw [run_eq]
  refine ⟨_, ?_, rfl⟩
  induction calls with
  | nil => exact .nil
  | cons c calls ih =>
    have hrest := ih fun d hd => h d (List.mem_cons_of_mem c hd)
    by_cases hname : c.file = name
    · obtain ⟨line, hline, hof⟩ := AuditRecord.exists_line (h c List.mem_cons_self) c.written
      have hsome : c.line? = some line := by rw [line?, hline]; rfl
      rw [List.filter_cons_of_pos (by simpa using hname), List.filterMap_cons_some hsome]
      exact .cons hof hrest
    · rw [List.filter_cons_of_neg (by simpa using hname)]
      exact hrest

/-- The calls of one time and day leave the lines that are listed for their files. -/
theorem run_linesByFile {records : List AuditRecord} {written : Stamp} {f : String} {lines : List String}
    (h : (f, lines) ∈ AuditRecord.linesByFile records written) (today : Date) :
    run (records.map fun r => ⟨r, written, today⟩) (fun _ => "") (f ++ "_" ++ today.text ++ ".log") =
      String.join (lines.map (· ++ "\n")) := by
  obtain ⟨_, -, heq⟩ := List.mem_map.mp h
  cases heq
  rw [run_eq, String.empty_append]
  congr 2
  clear h
  induction records with
  | nil => rfl
  | cons r records ih =>
    have hfile : AuditCall.file ⟨r, written, today⟩ = f ++ "_" ++ today.text ++ ".log" ↔
        r.kind.file = f := by
      rw [file, AuditKind.fileName, String.append_left_inj, String.append_left_inj, String.append_left_inj]
    by_cases hname : r.kind.file = f
    · rw [List.map_cons, List.filter_cons_of_pos (by simpa using hfile.mpr hname)]
      have hcall : line? ⟨r, written, today⟩ = (r.line written).toOption := rfl
      cases hline : r.line written with
      | error e =>
        rw [hline] at hcall
        rw [List.filterMap_cons_none hcall, ih]
        simp [hline]
      | ok line =>
        rw [hline] at hcall
        rw [List.filterMap_cons_some hcall, ih]
        simp [hline, hname]
    · rw [List.map_cons, List.filter_cons_of_neg (by simpa using mt hfile.mp hname), ih]
      cases hline : r.line written with
      | error e => simp [hline]
      | ok line => simp [hline, hname]

end AuditCall

end FaultDesk
