import FaultDesk.Proofs.Selection.Shown

/-!
What a gated simple rule has seen when it wins, over batches that follow each other: its timer runs on
through samples that the ordinary rules are not shown, whatever the condition is there.
-/

namespace FaultDesk

/-- One batch: its samples, the past readings at that time, and how many winners are wanted. -/
structure Batch where
  stream : List Sample
  extra : List Sample
  past : Option (String → List Sample)
  now : Instant
  wanted : Option Nat

namespace Selector

/-- The selector as it is when a batch is judged. -/
def during (sel : Selector) (b : Batch) : Selector := { sel with history := b.past, now := b.now }

def selectBatch (sel : Selector) (b : Batch) (t : Timers) : List SelectionEvent × Timers :=
  (sel.during b).select b.wanted b.stream b.extra t

/-- The timers after batches. -/
def timersAfter (sel : Selector) (batches : List Batch) (t : Timers) : Timers :=
  batches.foldl (fun u b => (sel.selectBatch b u).2) t

/-- What a simple rule sees at a unit in batch after batch. -/
def seenOver (sel : Selector) (r : Rule) (unit : String) :
    List Batch → Timers → List (Sample × Option Bool)
  | [], _ => []
  | b :: rest, t =>
    (sel.during b).seenFrom r unit [] b.wanted (blocks b.stream b.extra) t ++
      seenOver sel r unit rest (sel.selectBatch b t).2

end Selector

section Batches

variable {sel : Selector} {r : Rule} {d : Duration} {key : TimerKey} {t : Timers}

/-- All samples of the unit are listed. -/
theorem Selector.map_fst_seenOver {unit : String} (batches : List Batch) (t : Timers) :
    (sel.seenOver r unit batches t).map (·.1) =
      batches.flatMap fun b => samplesAt unit (blocks b.stream b.extra) := by
  induction batches generalizing t with
  | nil => rfl
  | cons b rest ih => rw [seenOver, List.map_append, map_fst_seenFrom, ih, List.flatMap_cons]

theorem Selector.Owns.during (h : sel.Owns r d key) (b : Batch) : (sel.during b).Owns r d key :=
  ⟨h.mem, h.sole, h.apart, h.duration, h.lasts, h.timed⟩

theorem Selector.selectBatch_judged (h : sel.Owns r d key) (hr : t.Reliable) {b : Batch}
    (hdated : ∀ s ∈ b.stream ++ b.extra, s.Dated) :
    Judged r d key t (sel.selectBatch b t).2
      ((sel.during b).seenFrom r key.unit [] b.wanted (blocks b.stream b.extra) t)
      ((sel.selectBatch b t).1.filterMap SelectionEvent.winner?) := by
  refine selectFrom_judged (h.during b) false [] b.wanted hr ?_ ?_
  · exact fun b' hb' s hs => unit_of_mem_samples b.stream b.extra hb' hs
  · intro b' hb' s hs
    exact hdated s (List.mem_append.mpr (mem_of_mem_samples b.stream b.extra hb' hs))

/-- The record of the rule after batches is what its sightings make of it. -/
theorem Selector.timersAfter_judged (h : sel.Owns r d key) (hr : t.Reliable) {batches : List Batch}
    (hdated : ∀ b ∈ batches, ∀ s ∈ b.stream ++ b.extra, s.Dated) :
    Judged r d key t (sel.timersAfter batches t) (sel.seenOver r key.unit batches t) [] := by
  induction batches generalizing t with
  | nil => exact .refl t
  | cons b rest ih =>
    have hfirst := selectBatch_judged h hr (hdated b List.mem_cons_self)
    have hrest := ih (hfirst.moves.reliable hr) fun b' hb' => hdated b' (List.mem_cons_of_mem b hb')
    exact (hfirst.trans hrest).mono (by simp)

theorem Selector.seenOver_concat {unit : String} (batches : List Batch) (last : Batch) (t : Timers) :
    sel.seenOver r unit (batches ++ [last]) t =
      sel.seenOver r unit batches t ++ (sel.during last).seenFrom r unit [] last.wanted
        (blocks last.stream last.extra) (sel.timersAfter batches t) := by
  induction batches generalizing t with
  | nil => simp [seenOver, timersAfter]
  | cons b rest ih => simp [seenOver, ih, timersAfter]

end Batches

/-- The start of a timer before samples that have been seen since: it has been running all the time,
or the first of the samples has started it. -/
def StartedBy (t : Timers) (key : TimerKey) (front since : List (Sample × Option Bool))
    (start : Stamp) : Prop :=
  (front = [] ∧ ∃ x, t.find? key = some x ∧ start = t.recalled x) ∨
    ∃ first, since.head? = some (first, some true) ∧ start = .utc first.time ∧
      ticked (fun i => t.kept (.utc i)) (t.find? key) front = none

theorem Lasting.since {t : Timers} {d : Duration} {key : TimerKey}
    {seen : List (Sample × Option Bool)} {s : Sample} (h : Lasting t d (t.find? key) seen s) :
    ∃ front since back start, seen = front ++ (since ++ [(s, some true)]) ++ back ∧
      (∀ e ∈ since ++ [(s, some true)], e.2 ≠ some false) ∧
      StartedBy t key front (since ++ [(s, some true)]) start ∧
      Timers.lasted d start (.utc s.time) = .ok true := by
  obtain ⟨before, back, rfl, hlasted⟩ := h
  cases hticked : ticked (fun i => t.kept (.utc i)) (t.find? key) before with
  | none =>
    rw [hticked] at hlasted
    exact ⟨before, [], back, .utc s.time, by simp, by simp, Or.inr ⟨s, rfl, rfl, hticked⟩, hlasted⟩
  | some x =>
    rw [hticked, Option.elim_some] at hlasted
    obtain ⟨front, since, rfl, hsince, hstart⟩ := ticked_eq_some hticked
    refine ⟨front, since, back, t.recalled x, by simp, ?_, ?_, hlasted⟩
    · intro e he
      rcases List.mem_append.mp he with he | he
      · exact hsince e he
      · rw [List.mem_singleton.mp he]
        simp
    · rcases hstart with ⟨rfl, hrunning⟩ | ⟨first, rest, rfl, rfl, hnone⟩
      · exact Or.inl ⟨rfl, x, hrunning, rfl⟩
      · exact Or.inr ⟨first, rfl, t.recalled_kept_utc first.time, hnone⟩

/-- When a gated simple rule wins at a sample, its condition was true at each sample since the start
of its timer in which it has seen anything. It was true at all samples that the rule looks at if and
only if it was true at those in which nothing is seen, which leave the timer alone. -/
theorem Selector.winner_seen_since_start {sel : Selector} {r : Rule} {d : Duration}
    {batches : List Batch} {last : Batch} {t : Timers} {c : Candidate} (hmem : r ∈ sel.simple)
    (hsole : (sel.simple.map (·.tag) ++ sel.rate.map (·.tag)).Nodup)
    (hapart : ∀ m ∈ sel.masters, ∀ key, r.timerKey c.unit = .ok key → m.timerKey c.unit ≠ .ok key)
    (hd : r.duration = some d) (hinstant : d.isInstant = false) (hr : t.Reliable)
    (hdated : ∀ b ∈ batches ++ [last], ∀ s ∈ b.stream ++ b.extra, s.Dated)
    (hc : .winner c ∈ (sel.selectBatch last (sel.timersAfter batches t)).1)
    (hrule : c.rule = .simple r) :
    ∃ key s front since back start, r.timerKey c.unit = .ok key ∧
      (sel.timersAfter batches t).find? key =
        ticked (fun i => t.kept (.utc i)) (t.find? key) (sel.seenOver r c.unit batches t) ∧
      c = .ofSample s (.simple r) none ∧
      sel.seenOver r c.unit (batches ++ [last]) t = front ++ (since ++ [(s, some true)]) ++ back ∧
      (front ++ (since ++ [(s, some true)]) ++ back).map (·.1) =
        (batches ++ [last]).flatMap (fun b => samplesAt c.unit (blocks b.stream b.extra)) ∧
      StartedBy t key front (since ++ [(s, some true)]) start ∧
      Timers.lasted d start (.utc s.time) = .ok true ∧
      (∀ e ∈ since, e.2 ≠ none → r.holdsFor e.1.value = .ok true) ∧
      ((∀ e ∈ since, r.sees c.unit e.1 = true → r.holdsFor e.1.value = .ok true) ↔
        ∀ e ∈ since, e.2 = none → r.sees c.unit e.1 = true → r.holdsFor e.1.value = .ok true) := by
  obtain ⟨key, hk⟩ : ∃ key, r.timerKey c.unit = .ok key := by
    obtain ⟨b, -, u, cs, hflush, hcs⟩ := flush_of_mem_selectFrom hc
    rcases found_of_flush hflush hcs with ⟨m, -, rfl⟩ | ⟨s, -, ⟨q, hholds, rfl⟩ | ⟨q, stats, rfl⟩⟩
    · cases hrule
    · obtain rfl : q = r := AnyRule.simple.inj hrule
      exact Rule.timerKey_of_holdsFor hholds s.unit
    · cases hrule
  have hunit : c.unit = key.unit := (Rule.timerKey_fields hk).1.symm
  have howns : sel.Owns r d key :=
    ⟨hmem, hsole, fun m hm => hunit ▸ hapart m hm key hk, hd, hinstant, hunit ▸ hk⟩
  have hbefore := timersAfter_judged howns hr fun b hb =>
    hdated b (List.mem_append_left [last] hb)
  have hlast := selectBatch_judged howns (hbefore.moves.reliable hr)
    (hdated last (List.mem_append_right batches List.mem_cons_self))
  have hall := hbefore.trans hlast
  rw [List.nil_append, ← seenOver_concat] at hall
  have hwinner : c ∈ (sel.selectBatch last (sel.timersAfter batches t)).1.filterMap
      SelectionEvent.winner? := List.mem_filterMap.mpr ⟨.winner c, hc, rfl⟩
  obtain ⟨s, hs, hlasting⟩ := hall.lasting c hwinner hunit hrule
  obtain ⟨front, since, back, start, hsplit, hsince, hstarted, hlasted⟩ := hlasting.since
  have hseen : ∀ e ∈ since, e.2 ≠ none → r.holdsFor e.1.value = .ok true := by
    intro e he hne
    obtain ⟨b, hb⟩ := Option.ne_none_iff_exists'.mp hne
    cases b with
    | false => exact absurd hb (hsince e (List.mem_append_left _ he))
    | true =>
      refine hall.sound e ?_ true hb
      rw [hsplit]
      exact List.mem_append_left _ (List.mem_append_right _ (List.mem_append_left _ he))
  rw [hunit]
  refine ⟨key, s, front, since, back, start, hunit ▸ hk, hbefore.record, hs, hsplit, ?_, hstarted,
    hlasted, hseen, ?_⟩
  · rw [← hsplit, map_fst_seenOver]
  · constructor
    · exact fun htrue e he _ hsees => htrue e he hsees
    · intro htrue e he hsees
      by_cases hnone : e.2 = none
      · exact htrue e he hnone hsees
      · exact hseen e he hnone

/-- That a lamp reads one for ten minutes is a fault, and where it reads zero no other rule is looked
at. -/
def lampWatch : Selector := ⟨[⟨.reads "Tag1" 0 0, 1⟩], [.reads "Tag1" 1 10], [], .single, none, 0⟩

/-- A batch of one reading of the lamp. -/
def Batch.lamp (n : Int) (minutes : Nat) : Batch := ⟨[.reading "Tag1" n minutes], [], none, 0, none⟩

/-- The lamp reads zero in between. -/
theorem lampWatch_seen_since_start :
    ∃ c s front since back start,
      SelectionEvent.winner c ∈ (lampWatch.selectBatch (.lamp 1 10)
        (lampWatch.timersAfter [.lamp 1 0, .lamp 0 5] (.empty true))).1 ∧
      c = .ofSample s (.simple (.reads "Tag1" 1 10)) none ∧
      lampWatch.seenOver (.reads "Tag1" 1 10) c.unit [.lamp 1 0, .lamp 0 5, .lamp 1 10] (.empty true) =
        front ++ (since ++ [(s, some true)]) ++ back ∧
      StartedBy (.empty true) ⟨"101", "Tag1", "1"⟩ front (since ++ [(s, some true)]) start := by
  have hwon : ∃ c ∈ (lampWatch.selectBatch (.lamp 1 10) (lampWatch.timersAfter
      [.lamp 1 0, .lamp 0 5] (.empty true))).1.filterMap SelectionEvent.winner?,
      c.unit = "101" ∧ c.rule = .simple (.reads "Tag1" 1 10) := by decide +kernel
  obtain ⟨c, hc, hunit, hrule⟩ := hwon
  have hwinner : SelectionEvent.winner c ∈ (lampWatch.selectBatch (.lamp 1 10)
      (lampWatch.timersAfter [.lamp 1 0, .lamp 0 5] (.empty true))).1 := by
    obtain ⟨e, he, hec⟩ := List.mem_filterMap.mp hc
    cases e <;> cases hec
    exact he
  have hkey : (Rule.reads "Tag1" 1 10).timerKey "101" = .ok ⟨"101", "Tag1", "1"⟩ := by decide +kernel
  have hmaster : ∀ m ∈ lampWatch.masters, m.timerKey "101" ≠ .ok ⟨"101", "Tag1", "1"⟩ := by
    decide +kernel
  obtain ⟨key, s, front, since, back, start, hk, -, hs, hsplit, -, hstart, -⟩ :=
    @Selector.winner_seen_since_start lampWatch (.reads "Tag1" 1 10) _ [.lamp 1 0, .lamp 0 5]
      (.lamp 1 10) (.empty true) c List.mem_cons_self (by decide)
      (by
        intro m hm key hk
        rw [hunit, hkey] at hk
        rw [hunit, ← Except.ok.inj hk]
        exact hmaster m hm)
      rfl (by decide +kernel) (Timers.empty_reliable true) (by decide) hwinner hrule
  rw [hunit, hkey] at hk
  obtain rfl := Except.ok.inj hk
  exact ⟨c, s, front, since, back, start, hwinner, hs, hsplit, hstart⟩

/-- The lamp reads zero in a batch in which a master rule matches, and wins ten minutes after it first
read one, with the timer started then. -/
theorem suppressed_reading_keeps_timer :
    ((lampWatch.selectBatch (.lamp 1 10) (lampWatch.timersAfter [.lamp 1 0, .lamp 0 5]
        (.empty true))).1.filterMap SelectionEvent.winner?).map (fun c => (c.rule, c.time)) =
        [(.simple (.reads "Tag1" 1 10), (Sample.reading "Tag1" 1 10).time)] ∧
      (lampWatch.timersAfter [.lamp 1 0, .lamp 0 5] (.empty true)).find? ⟨"101", "Tag1", "1"⟩ =
        some ((Timers.empty true).kept (.utc (Sample.reading "Tag1" 1 0).time)) ∧
      (Rule.reads "Tag1" 1 10).sees "101" (.reading "Tag1" 0 5) = true ∧
      (Rule.reads "Tag1" 1 10).holdsFor (Sample.reading "Tag1" 0 5).value = .ok false := by
  refine ⟨?_, ?_, ?_, ?_⟩ <;> decide +kernel

end FaultDesk
