import FaultDesk.Proofs.Sync.Passage
import FaultDesk.Proofs.Sync.Streams

/-!
Every sample is streamed once. Runs that go through, taken together, stream what one run from the
first checkpoint would: the checkpoint stands at the latest sample that has been streamed, and rows
that come in are later than it. Runs that fail, or that break off anywhere, leave the checkpoint where
it is and so take nothing away.
-/

namespace FaultDesk

/-! ## Histories of runs -/

namespace Desk

/-- The instant of the checkpoint of a desk, if one is stored. -/
def checkpoint? (d : Desk) : Option Instant :=
  (Checkpoint.stored? (Checkpoint.valueOf d.register d.runKey)).bind (·.instant?)

/-- Whether a desk is fit for runs with these rules: whenever its rules can be read they are these, its
checkpoint can be reached, its clock stands within the calendar, and its readings are settled. -/
structure Ready (c : Config) (d : Desk) : Prop where
  rules : ∀ c', d.rules = .ok c' → c' = c
  access : d.register.access = .ok ()
  clock : d.now < Instant.limit
  settled : d.readings.Settled d.now
  keepsTimes : d.readings.KeepsTimes c.analogTags

/-- Whether a desk can become another between runs: the clock does not go back, the checkpoint stays,
and rows come in that are later than all others. All else may change. -/
structure Waits (c : Config) (d d' : Desk) : Prop where
  rules : ∀ c', d'.rules = .ok c' → c' = c
  access : d'.register.access = .ok ()
  clock : d.now ≤ d'.now ∧ d'.now < Instant.limit
  checkpoint : d'.checkpoint? = d.checkpoint?
  grown : ∃ newDigital newAnalog, d.readings.Grown d'.readings d'.now newDigital newAnalog

end Desk

/-- The desks that runs lead to from a first checkpoint, with the streams of the runs that went through.
A run that breaks off somewhere is a time in which the checkpoint stays. -/
inductive SyncHistory (c : Config) (first : Instant) : Desk → List (List (Row × List Sample)) → Prop
  | start {d : Desk} : d.Ready c → d.checkpoint? = some first → first ≤ d.now →
      SyncHistory c first d []
  | run {d : Desk} {streams : List (List (Row × List Sample))} : SyncHistory c first d streams →
      SyncHistory c first d.run.2 (streams ++ d.streamed.toList)
  | wait {d d' : Desk} {streams : List (List (Row × List Sample))} : SyncHistory c first d streams →
      d.Waits c d' → SyncHistory c first d' streams

namespace Desk

variable {c : Config} {d d' : Desk} {first t : Instant} {rows : List (Row × List Sample)}
  {streams : List (List (Row × List Sample))}

theorem Ready.congr (h : d.Ready c) (hnow : d'.now = d.now) (hrules : d'.rules = d.rules)
    (hreadings : d'.readings = d.readings) (haccess : d'.register.access = d.register.access) :
    d'.Ready c := by
  refine ⟨?_, haccess.trans h.access, ?_, ?_, ?_⟩
  · rw [hrules]
    exact h.rules
  · rw [hnow]
    exact h.clock
  · rw [hreadings, hnow]
    exact h.settled
  · rw [hreadings]
    exact h.keepsTimes

theorem Ready.alike (h : d.Ready c) (halike : Alike d d') : d'.Ready c :=
  h.congr halike.now halike.rules halike.readings halike.access

theorem Ready.waits (h : d.Ready c) (hwaits : d.Waits c d') : d'.Ready c := by
  obtain ⟨newDigital, newAnalog, hgrown⟩ := hwaits.grown
  refine ⟨hwaits.rules, hwaits.access, hwaits.clock.2, h.settled.grown hwaits.clock.1 hgrown, ?_⟩
  intro table htable
  rw [hgrown.digital] at htable
  obtain ⟨old, hold, rfl⟩ := Option.map_eq_some_iff.mp htable
  exact h.keepsTimes old hold

theorem checkpoint?_alike (halike : Alike d d') : d'.checkpoint? = d.checkpoint? := by
  unfold checkpoint? Checkpoint.valueOf Register.setting?
  rw [halike.settings, halike.runKey]

theorem movedTo_some (haccess : d.register.access = .ok ()) (hpast : 0 ≤ t)
    (hlimit : t < Instant.limit) (hnow : t ≤ d.now) :
    d.movedTo (some t) = { d with
      register := { d.register with
        settings := Checkpoint.written d.register.settings d.runKey (Stamp.utc t).text } } := by
  unfold movedTo
  dsimp only
  rw [Checkpoint.set_utc haccess _ hpast hlimit, Int.min_eq_left hnow]

theorem checkpoint?_movedTo (haccess : d.register.access = .ok ()) (hpast : 0 ≤ t)
    (hlimit : t < Instant.limit) (hnow : t ≤ d.now) :
    (d.movedTo (some t)).checkpoint? = some t := by
  have hvalue : Checkpoint.valueOf { d.register with
      settings := Checkpoint.written d.register.settings d.runKey (Stamp.utc t).text } d.runKey =
        some (Stamp.utc t).text := Checkpoint.valueOf_written ..
  rw [movedTo_some haccess hpast hlimit hnow]
  show (Checkpoint.stored? (Checkpoint.valueOf _ d.runKey)).bind _ = _
  rw [hvalue, Checkpoint.stored?_text hpast hlimit]
  exact Stamp.instant?_utc ⟨hpast, hlimit⟩

/-- Where the streams have all samples after the first checkpoint that are not after a time, and the
checkpoint stands there. -/
structure StreamedUpTo (c : Config) (first : Instant) (streams : List (List (Row × List Sample)))
    (t : Instant) (d : Desk) : Prop where
  ready : d.Ready c
  checkpoint : d.checkpoint? = some t
  past : t ≤ d.now
  le : first ≤ t
  taken : (streams.flatMap streamSamples).Perm
    (((SourceReader.ofConfig c).samplesAfter d.readings first).filter
      (fun s => decide (s.time ≤ t)))
  apart : streams.Pairwise fun before after =>
    ∀ s ∈ streamSamples before, ∀ s' ∈ streamSamples after, s.time < s'.time
  /-- Once the checkpoint has moved, a row stands at it, and all rows up to it have samples. -/
  moved : t = first ∨ 0 ≤ first ∧ (∃ row ∈ d.readings.rows, row.timeCell = .stamp (.naive t)) ∧
    ∀ row ∈ d.readings.joined, Cell.isAfter row.timeCell first = true →
      (∀ i, row.timeCell = .stamp (.naive i) → i ≤ t) →
      ∃ ss, (SourceReader.ofConfig c).exploded row = .ok ss

namespace StreamedUpTo

theorem congr (h : StreamedUpTo c first streams t d) (hready : d'.Ready c)
    (hnow : d'.now = d.now) (hreadings : d'.readings = d.readings)
    (hcheckpoint : d'.checkpoint? = d.checkpoint?) : StreamedUpTo c first streams t d' := by
  refine ⟨hready, hcheckpoint.trans h.checkpoint, ?_, h.le, ?_, h.apart, ?_⟩
  · rw [hnow]
    exact h.past
  · rw [hreadings]
    exact h.taken
  · rw [hreadings]
    exact h.moved

theorem start (hready : d.Ready c) (hcheckpoint : d.checkpoint? = some first) (hpast : first ≤ d.now) :
    StreamedUpTo c first [] first d := by
  refine ⟨hready, hcheckpoint, hpast, Int.le_refl _, ?_, .nil, Or.inl rfl⟩
  have hnone : ((SourceReader.ofConfig c).samplesAfter d.readings first).filter
      (fun s => decide (s.time ≤ first)) = [] := by
    refine List.filter_eq_nil_iff.mpr fun s hs => ?_
    obtain ⟨-, -, -, hlt⟩ :=
      SourceReader.exists_of_mem_samplesAfter hready.settled hready.keepsTimes hs
    simpa using hlt
  rw [hnone]
  exact .nil

theorem time_le (h : StreamedUpTo c first streams t d) {stream : List (Row × List Sample)}
    (hstream : stream ∈ streams) {s : Sample} (hs : s ∈ streamSamples stream) : s.time ≤ t := by
  have hmem := h.taken.mem_iff.mp (List.mem_flatMap.mpr ⟨stream, hstream, hs⟩)
  exact of_decide_eq_true (List.mem_filter.mp hmem).2

/-- The time up to which samples have been streamed is before all rows that come in. -/
theorem time_lt_of_later (h : StreamedUpTo c first streams t d) {i : Instant}
    (hafter : first < i)
    (hlater : ∀ old ∈ d.readings.rows, ∀ j, old.timeCell = .stamp (.naive j) → j < i) : t < i := by
  rcases h.moved with rfl | ⟨-, ⟨row, hrow, htime⟩, -⟩
  · exact hafter
  · exact hlater row hrow t htime

theorem waits (h : StreamedUpTo c first streams t d) (hwaits : d.Waits c d') :
    StreamedUpTo c first streams t d' := by
  have hready := h.ready.waits hwaits
  obtain ⟨newDigital, newAnalog, hgrown⟩ := hwaits.grown
  obtain ⟨new, hjoined, hnew⟩ := hgrown.joined
  refine ⟨hready, hwaits.checkpoint.trans h.checkpoint, Int.le_trans h.past hwaits.clock.1, h.le, ?_,
    h.apart, ?_⟩
  · have hsamples : (SourceReader.ofConfig c).samplesAfter d'.readings first =
        (SourceReader.ofConfig c).samplesAfter d.readings first ++
          (new.filter (Cell.isAfter ·.timeCell first)).flatMap
            (SourceReader.ofConfig c).samplesOfRow := by
      unfold SourceReader.samplesAfter
      rw [hjoined, List.filter_append, List.flatMap_append]
    have hnone : ((new.filter (Cell.isAfter ·.timeCell first)).flatMap
        (SourceReader.ofConfig c).samplesOfRow).filter (fun s => decide (s.time ≤ t)) = [] := by
      refine List.filter_eq_nil_iff.mpr fun s hs => ?_
      obtain ⟨row, hrow, hs⟩ := List.mem_flatMap.mp hs
      obtain ⟨hrow, hafter⟩ := List.mem_filter.mp hrow
      obtain ⟨i, hi, hlater⟩ := hnew row hrow
      obtain ⟨htime, hlt⟩ := SourceReader.time_of_mem_samplesOfRow hready.settled hready.keepsTimes
        (hjoined ▸ List.mem_append_right _ hrow) hafter hs
      rw [hi] at htime
      cases htime
      simpa using h.time_lt_of_later hlt hlater
    rw [hsamples, List.filter_append, hnone, List.append_nil]
    exact h.taken
  · refine h.moved.imp_right ?_
    rintro ⟨hpast, ⟨row, hrow, htime⟩, hexploded⟩
    refine ⟨hpast, ⟨row, hgrown.mem_rows_of_mem hrow, htime⟩, ?_⟩
    intro row' hrow' hafter hle
    rw [hjoined] at hrow'
    rcases List.mem_append.mp hrow' with hold | hcame
    · exact hexploded row' hold hafter hle
    · -- a row that has come in is later than the checkpoint
      obtain ⟨i, hi, hlater⟩ := hnew row' hcame
      exact absurd (hle i hi) (Int.not_le.mpr (hlater row hrow t htime))

/-! ### A run that goes through -/

/-- The streams have all samples together with the rows after the checkpoint. -/
theorem perm_append (h : StreamedUpTo c first streams t d)
    (hrows : d.stream (.ofConfig c) t = .ok (rows, none)) :
    ((streams ++ [rows]).flatMap streamSamples).Perm
      ((SourceReader.ofConfig c).samplesAfter d.readings first) := by
  have hnew := streamSamples_perm hrows
  rw [SourceReader.samplesAfter_eq_filter h.ready.settled h.ready.keepsTimes h.le] at hnew
  rw [List.flatMap_append, List.flatMap_singleton]
  have hnot : (fun s : Sample => decide (t < s.time)) = fun s => !decide (s.time ≤ t) := by
    funext s
    rw [← decide_not]
    exact decide_eq_decide.mpr Int.not_le.symm
  rw [hnot] at hnew
  exact (h.taken.append hnew).trans (List.filter_append_perm _ _)

theorem apart_append (h : StreamedUpTo c first streams t d)
    (hrows : d.stream (.ofConfig c) t = .ok (rows, none)) :
    (streams ++ [rows]).Pairwise fun before after =>
      ∀ s ∈ streamSamples before, ∀ s' ∈ streamSamples after, s.time < s'.time := by
  refine List.pairwise_append.mpr ⟨h.apart, List.pairwise_singleton _ _, ?_⟩
  intro before hbefore after hafter s hs s' hs'
  rw [List.mem_singleton.mp hafter] at hs'
  obtain ⟨-, -, -, hlt⟩ := SourceReader.exists_of_mem_samplesAfter h.ready.settled
    h.ready.keepsTimes ((streamSamples_perm hrows).mem_iff.mp hs')
  exact Int.lt_of_le_of_lt (h.time_le hbefore hs) hlt

theorem exploded_of_stream (h : StreamedUpTo c first streams t d)
    (hrows : d.stream (.ofConfig c) t = .ok (rows, none)) {row : Row} (hrow : row ∈ d.readings.joined)
    (hafter : Cell.isAfter row.timeCell first = true) :
    ∃ ss, (SourceReader.ofConfig c).exploded row = .ok ss := by
  rcases h.moved with rfl | ⟨-, -, hexploded⟩
  · exact Desk.exploded_of_stream hrows hrow hafter
  · by_cases hle : ∀ i, row.timeCell = .stamp (.naive i) → i ≤ t
    · exact hexploded row hrow hafter hle
    · push Not at hle
      obtain ⟨i, hi, hlt⟩ := hle
      exact Desk.exploded_of_stream hrows hrow (hi ▸ Cell.isAfter_naive.mpr hlt)

theorem past_of_stream (h : StreamedUpTo c first streams t d)
    (hrows : d.stream (.ofConfig c) t = .ok (rows, none)) : 0 ≤ first := by
  rcases h.moved with rfl | ⟨hpast, -⟩
  · exact (stream_ok hrows).1
  · exact hpast

theorem taken_append (h : StreamedUpTo c first streams t d)
    (hrows : d.stream (.ofConfig c) t = .ok (rows, none)) {t' : Instant} (hle : t ≤ t')
    (hnew : ∀ s ∈ streamSamples rows, s.time ≤ t') :
    ((streams ++ [rows]).flatMap streamSamples).Perm
      (((SourceReader.ofConfig c).samplesAfter d.readings first).filter
        (fun s => decide (s.time ≤ t'))) := by
  have hall := h.perm_append hrows
  rw [List.filter_eq_self.mpr]
  · exact hall
  · intro s hs
    obtain ⟨stream, hstream, hs⟩ := List.mem_flatMap.mp (hall.mem_iff.mpr hs)
    rcases List.mem_append.mp hstream with hbefore | hlast
    · exact decide_eq_true (Int.le_trans (h.time_le hbefore hs) hle)
    · rw [List.mem_singleton.mp hlast] at hs
      exact decide_eq_true (hnew s hs)

/-- A sample that is streamed stands in a row that is present and not of a time to come. -/
theorem exists_row (h : StreamedUpTo c first streams t d)
    (hrows : d.stream (.ofConfig c) t = .ok (rows, none)) {s : Sample}
    (hs : s ∈ streamSamples rows) :
    (∃ row ∈ d.readings.rows, row.timeCell = .stamp (.naive s.time)) ∧ t < s.time ∧
      s.time ≤ d.now := by
  obtain ⟨row, hrow, htime, hlt⟩ := SourceReader.exists_of_mem_samplesAfter h.ready.settled
    h.ready.keepsTimes ((streamSamples_perm hrows).mem_iff.mp hs)
  obtain ⟨table, old, htable, hold, holdTime⟩ := Readings.exists_of_mem_joined hrow
  have hpresent : old ∈ d.readings.rows := by simp [Readings.rows, htable, hold]
  exact ⟨⟨old, hpresent, holdTime ▸ htime⟩, hlt,
    h.ready.settled.past old hpresent s.time (holdTime ▸ htime)⟩

/-- A run that goes through moves the checkpoint to its latest sample. -/
theorem moves (h : StreamedUpTo c first streams t d)
    (hrows : d.stream (.ofConfig c) t = .ok (rows, none)) :
    ∃ t', StreamedUpTo c first (streams ++ [rows]) t' (d.movedTo (latestOf (streamSamples rows))) := by
  cases hmax : latestOf (streamSamples rows) with
  | none =>
    have hnil : streamSamples rows = [] := List.map_eq_nil_iff.mp (List.max?_eq_none_iff.mp hmax)
    refine ⟨t, h.ready, h.checkpoint, h.past, h.le, h.taken_append hrows (Int.le_refl t) ?_,
      h.apart_append hrows, h.moved⟩
    intro s hs
    rw [hnil] at hs
    cases hs
  | some latest =>
    obtain ⟨hmem, hgreatest⟩ := List.max?_eq_some_iff.mp hmax
    obtain ⟨s, hs, rfl⟩ := List.mem_map.mp hmem
    obtain ⟨hrow, hlt, hnow⟩ := h.exists_row hrows hs
    have hpast : 0 ≤ s.time := Int.le_trans (stream_ok hrows).1 (Int.le_of_lt hlt)
    have hlimit : s.time < Instant.limit := Int.lt_of_le_of_lt hnow h.ready.clock
    have hmoved := movedTo_some h.ready.access hpast hlimit hnow
    refine ⟨s.time, ?_, checkpoint?_movedTo h.ready.access hpast hlimit hnow, ?_,
      Int.le_trans h.le (Int.le_of_lt hlt), ?_, h.apart_append hrows, ?_⟩
    · rw [hmoved]
      exact h.ready.congr rfl rfl rfl rfl
    · rw [hmoved]
      exact hnow
    · rw [hmoved]
      exact h.taken_append hrows (Int.le_of_lt hlt) fun s' hs' =>
        hgreatest _ (List.mem_map_of_mem hs')
    · rw [hmoved]
      exact Or.inr ⟨h.past_of_stream hrows, hrow, fun row' hrow' hafter _ =>
        h.exploded_of_stream hrows hrow' hafter⟩

/-- A run that goes through streams the rows after the checkpoint. -/
theorem run_cases (h : StreamedUpTo c first streams t d) :
    (d.streamed = none ∧ Alike d d.run.2) ∨
      ∃ rows, d.stream (.ofConfig c) t = .ok (rows, none) ∧ d.streamed = some rows ∧
        Alike (d.movedTo (latestOf (streamSamples rows))) d.run.2 := by
  rcases d.run_cases with hfailed | ⟨c', since, rows, hrules, hsince, hrows, hsome, halike⟩
  · exact Or.inl hfailed
  · obtain rfl := h.ready.rules c' hrules
    obtain ⟨s, hstored, hinstant⟩ := Option.bind_eq_some_iff.mp h.checkpoint
    rw [Checkpoint.get_of_stored h.ready.access hstored hinstant h.past] at hsince
    cases hsince
    exact Or.inr ⟨rows, hrows, hsome, halike⟩

theorem run (h : StreamedUpTo c first streams t d) :
    ∃ t', StreamedUpTo c first (streams ++ d.streamed.toList) t' d.run.2 := by
  rcases h.run_cases with ⟨hnone, halike⟩ | ⟨rows, hrows, hsome, halike⟩
  · rw [hnone, Option.toList_none, List.append_nil]
    exact ⟨t, h.congr (h.ready.alike halike) halike.now halike.readings (checkpoint?_alike halike)⟩
  · obtain ⟨t', ht'⟩ := h.moves hrows
    rw [hsome]
    exact ⟨t', ht'.congr (ht'.ready.alike halike) halike.now halike.readings
      (checkpoint?_alike halike)⟩

end StreamedUpTo

end Desk

namespace SyncHistory

variable {c : Config} {first : Instant} {d : Desk} {streams : List (List (Row × List Sample))}

theorem streamedUpTo (h : SyncHistory c first d streams) :
    ∃ t, Desk.StreamedUpTo c first streams t d := by
  induction h with
  | start hready hcheckpoint hpast => exact ⟨first, .start hready hcheckpoint hpast⟩
  | run _ ih =>
    obtain ⟨t, ht⟩ := ih
    exact ht.run
  | wait _ hwaits ih =>
    obtain ⟨t, ht⟩ := ih
    exact ⟨t, ht.waits hwaits⟩

theorem index_unique (hapart : streams.Pairwise fun before after =>
      ∀ s ∈ streamSamples before, ∀ s' ∈ streamSamples after, s.time < s'.time)
    {s : Sample} (hs : s ∈ streams.flatMap streamSamples) :
    ∃! i : Nat, ∃ stream, streams[i]? = some stream ∧ s ∈ streamSamples stream := by
  obtain ⟨stream, hstream, hs⟩ := List.mem_flatMap.mp hs
  obtain ⟨i, hi, rfl⟩ := List.getElem_of_mem hstream
  refine ⟨i, ⟨streams[i], List.getElem?_eq_getElem hi, hs⟩, ?_⟩
  rintro j ⟨other, hother, hs'⟩
  obtain ⟨hj, rfl⟩ := List.getElem?_eq_some_iff.mp hother
  have hordered := List.pairwise_iff_getElem.mp hapart
  rcases Nat.lt_trichotomy i j with hlt | heq | hgt
  · exact absurd (hordered i j hi hj hlt s hs s hs') (Int.lt_irrefl _)
  · exact heq.symm
  · exact absurd (hordered j i hj hi hgt s hs' s hs) (Int.lt_irrefl _)

end SyncHistory

/-- A run of a history that fails leaves the checkpoint where it is. When one goes through, the runs
that have gone through have streamed the samples of all rows that are present after the first
checkpoint, as one run from there would, and each sample has been streamed by exactly one of them. -/
theorem samples_streamed_once {c : Config} {first : Instant} {d : Desk}
    {streams : List (List (Row × List Sample))} (h : SyncHistory c first d streams) :
    (d.streamed = none → d.run.2.checkpoint? = d.checkpoint?) ∧
      ∀ rows, d.streamed = some rows → ∃ all, d.stream (.ofConfig c) first = .ok (all, none) ∧
        ((streams ++ [rows]).flatMap streamSamples).Perm (streamSamples all) ∧
        ∀ s ∈ streamSamples all,
          ∃! i : Nat, ∃ stream, (streams ++ [rows])[i]? = some stream ∧ s ∈ streamSamples stream := by
  obtain ⟨t, ht⟩ := h.streamedUpTo
  rcases ht.run_cases with ⟨hnone, halike⟩ | ⟨rows, hrows, hsome, -⟩
  · refine ⟨fun _ => Desk.checkpoint?_alike halike, fun rows hrows => ?_⟩
    rw [hnone] at hrows
    cases hrows
  · refine ⟨fun hnone => absurd hnone (by simp [hsome]), fun rows' hrows' => ?_⟩
    obtain rfl : rows = rows' := Option.some.inj (hsome.symm.trans hrows')
    obtain ⟨all, hall⟩ := Desk.stream_ok_of_exploded hrows (ht.past_of_stream hrows)
      (Int.lt_of_le_of_lt ht.le (Desk.stream_ok hrows).2.1)
      fun row hrow hafter => ht.exploded_of_stream hrows hrow hafter
    have hperm := (ht.perm_append hrows).trans (Desk.streamSamples_perm hall).symm
    refine ⟨all, hall, hperm, fun s hs => ?_⟩
    exact SyncHistory.index_unique (ht.apart_append hrows) (hperm.mem_iff.mpr hs)

/-! ## One unit with a lamp -/

/-- The times of the samples that a run streams. -/
def Desk.streamedTimes (d : Desk) : Option (List Instant) :=
  d.streamed.map fun rows => (streamSamples rows).map (·.time)

/-- A reading of a lamp. -/
def lampRow (time : Instant) : Row :=
  [(Row.unitColumn, .int 101), (Row.timeColumn, .stamp (.naive time)), ("Tag1", .int 1)]

def lampTable (rows : List Row) : ReadingTable :=
  ⟨[(Row.unitColumn, .whole), (Row.timeColumn, .stamp), ("Tag1", .whole)], rows, true⟩

def noAnalog : ReadingTable := ⟨[(Row.unitColumn, .whole), (Row.timeColumn, .stamp)], [], true⟩

/-- Rules about one tag. -/
def lampRules : Config :=
  { Config.standard with
    ruleSets := ⟨⟨true, none, [.simple { (default : Rule) with tag := "Tag1", enabled := true }]⟩,
      .empty⟩ }

/-- A desk at two o'clock whose checkpoint is of one o'clock. -/
def deskAtTwo (c : Config) (digital : ReadingTable) : Desk :=
  { quietDesk with
    now := 2 * Span.hour
    rules := .ok c
    readings := ⟨"north", some digital, some noAnalog, false⟩
    register := { Register.empty with
      settings := [⟨Checkpoint.key "north", some (Stamp.utc Span.hour).text, none, true⟩] } }

/-- A lamp has been read at half past one. -/
def lampDesk : Desk := deskAtTwo lampRules (lampTable [lampRow (90 * Span.minute)])

/-- At three o'clock, after a run and another reading, the source cannot be read. -/
def lampDown : Desk :=
  { lampDesk.run.2 with
    now := 3 * Span.hour
    readings := { lampDesk.readings with
      digital := some (lampTable [lampRow (90 * Span.minute), lampRow (150 * Span.minute)]) }
    downParts := [SourcePart.stream.name] }

/-- After a run that failed the source can be read again. -/
def lampUp : Desk := { lampDown.run.2 with downParts := [] }

theorem lampTable_kept (times : List Instant) : (lampTable (times.map lampRow)).Kept := by
  intro row hrow
  obtain ⟨time, -, rfl⟩ := List.mem_map.mp hrow
  exact ⟨[.int 101, .stamp (.naive time), .int 1], rfl⟩

theorem lampDesk_ready : lampDesk.Ready lampRules := by
  refine ⟨fun c' hc' => (Except.ok.inj hc').symm, rfl, by decide, ⟨?_, ?_, ?_⟩, ?_⟩
  · intro t ht
    obtain rfl := Option.some.inj ht
    exact lampTable_kept [90 * Span.minute]
  · intro t ht
    obtain rfl := Option.some.inj ht
    intro row hrow
    cases hrow
  · intro row hrow i hi
    obtain rfl : row = lampRow (90 * Span.minute) := by
      simpa [Readings.rows, lampDesk, deskAtTwo, lampTable, noAnalog] using hrow
    cases hi
    decide
  · intro t ht column hcolumn htag
    obtain rfl := Option.some.inj ht
    have hnone : ∀ column ∈ (lampTable [lampRow (90 * Span.minute)]).columns,
        Row.analogTag? column.1 = none := by decide
    rw [hnone column hcolumn] at htag
    cases htag

theorem lampDesk_run :
    SyncHistory lampRules Span.hour lampDesk.run.2 ([] ++ lampDesk.streamed.toList) :=
  (SyncHistory.start lampDesk_ready (by decide +kernel) (by decide)).run

theorem lampDown_waits : lampDesk.run.2.Waits lampRules lampDown := by
  obtain ⟨t, hrun⟩ := lampDesk_run.streamedUpTo
  obtain ⟨hreadings, hnow⟩ := lampDesk.run_readings
  refine ⟨hrun.ready.rules, hrun.ready.access, ?_, by decide +kernel,
    [lampRow (150 * Span.minute)], [], ?_⟩
  · rw [hnow]
    decide
  · rw [hreadings]
    refine ⟨rfl, rfl, rfl, ?_, ?_, ?_⟩
    · intro t ht row hrow
      obtain rfl := Option.some.inj ht
      rw [List.mem_singleton.mp hrow]
      exact ⟨[.int 101, .stamp (.naive (150 * Span.minute)), .int 1], rfl⟩
    · intro t _ row hrow
      cases hrow
    · intro row hrow
      obtain rfl : row = lampRow (150 * Span.minute) := by simpa using hrow
      refine ⟨150 * Span.minute, rfl, by decide, ?_⟩
      intro old hold j hj
      obtain rfl : old = lampRow (90 * Span.minute) := by
        simpa [Readings.rows, lampDesk, deskAtTwo, lampTable, noAnalog] using hold
      cases hj
      decide

theorem lampUp_reached : SyncHistory lampRules Span.hour lampUp
    ([] ++ lampDesk.streamed.toList ++ lampDown.streamed.toList) := by
  have hdown := (lampDesk_run.wait lampDown_waits).run
  obtain ⟨t, hrun⟩ := hdown.streamedUpTo
  refine hdown.wait ⟨hrun.ready.rules, hrun.ready.access, ⟨Int.le_refl _, hrun.ready.clock⟩, rfl,
    [], [], Readings.grown_nil _ _⟩

/-- The reading of half past one is streamed by the first run, that of half past two by the last one,
and the run between them fails. -/
theorem lamp_streamed_once :
    lampDesk.streamedTimes = some [90 * Span.minute] ∧ lampDown.streamedTimes = none ∧
      ∃ rows, lampUp.streamed = some rows ∧
        (streamSamples rows).map (·.time) = [150 * Span.minute] ∧
        ∃ all, lampUp.stream (.ofConfig lampRules) Span.hour = .ok (all, none) ∧
          ((([] ++ lampDesk.streamed.toList ++ lampDown.streamed.toList) ++ [rows]).flatMap
            streamSamples).Perm (streamSamples all) := by
  refine ⟨by decide +kernel, by decide +kernel, ?_⟩
  have htimes : lampUp.streamedTimes = some [150 * Span.minute] := by decide +kernel
  obtain ⟨rows, hrows, htimes⟩ := Option.map_eq_some_iff.mp htimes
  obtain ⟨all, hall, hperm, -⟩ := (samples_streamed_once lampUp_reached).2 rows hrows
  exact ⟨rows, hrows, htimes, all, hall, hperm⟩

/-- The lamp has been read at three o'clock, ahead of the clock. -/
def lampAhead : Desk := deskAtTwo lampRules (lampTable [lampRow (3 * Span.hour)])

/-- The time column is a tag with an analog rule, and the digital table has an analog column for it. -/
def clockDesk : Desk :=
  deskAtTwo
    { Config.standard with
      ruleSets := ⟨.empty, ⟨true, none,
        [.simple { (default : Rule) with tag := Row.timeColumn, enabled := true }]⟩⟩ }
    ⟨[(Row.unitColumn, .whole), (Row.timeColumn, .stamp), (Row.analogMark ++ Row.timeColumn, .stamp)],
      [[(Row.unitColumn, .int 101), (Row.timeColumn, .stamp (.naive (2 * Span.hour))),
        (Row.analogMark ++ Row.timeColumn, .stamp (.naive (90 * Span.minute)))]], true⟩

/-- A row that is ahead of the clock is streamed again, since the checkpoint is not set to a time to
come; and so is a row whose samples have another time than the row. -/
theorem sole_row_streamed_twice :
    (lampAhead.checkpoint? = some Span.hour ∧ lampAhead.readings.joined.length = 1 ∧
        lampAhead.streamedTimes = some [3 * Span.hour] ∧
        lampAhead.run.2.streamedTimes = some [3 * Span.hour]) ∧
      clockDesk.checkpoint? = some Span.hour ∧ clockDesk.readings.joined.length = 1 ∧
      clockDesk.streamedTimes = some [90 * Span.minute] ∧
      clockDesk.run.2.streamedTimes = some [90 * Span.minute] := by
  decide +kernel

end FaultDesk
