import FaultDesk.Proofs.Arbitration.Standing

/-!
The cut of a unit's readings into batches does not matter to a gated rule that is judged alone. A
batch does to the record of the rule what its samples do one after the other, and the result depends
on the latest sample and the record only.
-/

namespace FaultDesk

/-! ## Sample after sample -/

namespace MasterRule

/-- The record of a timer when a rule has looked at one sample after the other: a true sample starts
the timer unless it runs, a false one drops it. -/
def recordAfter (r : MasterRule) (kept : Instant → Stamp) (record : Option Stamp)
    (seen : List Sample) : Option Stamp :=
  seen.foldl (fun record s => if r.trueAt s then some (record.getD (kept s.time)) else none) record

variable {r : MasterRule} {unit : String} {samples : List Sample} {t : Timers} {key : TimerKey}
  {latest : Sample} {kept : Instant → Stamp} {record : Option Stamp}

theorem recordAfter_append (before after : List Sample) :
    r.recordAfter kept record (before ++ after) =
      r.recordAfter kept (r.recordAfter kept record before) after :=
  List.foldl_append

theorem recordAfter_eq {seen : List Sample} (hne : seen ≠ []) :
    r.recordAfter kept record seen = (seen.rtakeWhile r.trueAt).head?.map fun first =>
      if seen.all r.trueAt then record.getD (kept first.time) else kept first.time := by
  -- samples are added at the end, where the block of true samples grows or is cut off
  induction seen using List.reverseRecOn with
  | nil => exact absurd rfl hne
  | append_singleton seen s ih =>
    rw [recordAfter_append]
    cases hs : r.trueAt s with
    | false => simp [recordAfter, hs]
    | true =>
      have hlast : r.recordAfter kept (r.recordAfter kept record seen) [s] =
          some ((r.recordAfter kept record seen).getD (kept s.time)) := by
        simp [recordAfter, hs]
      have hall : (seen ++ [s]).all r.trueAt = seen.all r.trueAt := by simp [hs]
      rw [hlast, hall, List.rtakeWhile_concat_pos _ _ _ hs]
      by_cases hseen : seen = []
      · subst seen
        simp [recordAfter]
      · rw [ih hseen]
        cases hblock : seen.rtakeWhile r.trueAt with
        | cons first rest => simp
        | nil =>
          have hfalse := List.rtakeWhile_eq_nil_iff.mp hblock hseen
          have hnot : seen.all r.trueAt = false := by
            rw [List.all_eq_false]
            exact ⟨seen.getLast hseen, List.getLast_mem hseen, hfalse⟩
          simp [hnot]

/-! ## One batch -/

/-- A batch that a rule takes: nothing fails, no sample is a computed one, and the rule looks at some
of them. -/
structure Takes (r : MasterRule) (unit : String) (batch : List Sample) (t : Timers) : Prop
    extends r.Evaluable unit batch t where
  dated : ∀ s ∈ batch, s.Dated
  read : ∀ s ∈ batch, s.kind ≠ .computed
  looks : ∃ s ∈ batch, r.concerns s = true

theorem Takes.relevant_ne_nil (h : r.Takes unit samples t) : r.relevant samples ≠ [] := by
  obtain ⟨s, hs, hc⟩ := h.looks
  exact List.ne_nil_of_mem (mem_relevant.mpr ⟨hs, hc⟩)

theorem Takes.append {front back : List Sample} (hfront : r.Takes unit front t)
    (hback : r.Takes unit back t) : r.Takes unit (front ++ back) t := by
  obtain ⟨s, hs, hc⟩ := hfront.looks
  refine ⟨⟨?_, hfront.key, hfront.span, hfront.zoned⟩, ?_, ?_, s, List.mem_append_left back hs, hc⟩
  · intro s hs
    exact (List.mem_append.mp hs).elim (hfront.values s) (hback.values s)
  · intro s hs
    exact (List.mem_append.mp hs).elim (hfront.dated s) (hback.dated s)
  · intro s hs
    exact (List.mem_append.mp hs).elim (hfront.read s) (hback.read s)

/-- A batch of readings does to the record of a gated rule what its samples do. -/
theorem Takes.find?_verdict (h : r.Takes unit samples t) (hr : t.Reliable) (hg : r.gated = true)
    (hk : r.timerKey unit = .ok key) :
    (r.verdict unit samples t).2.find? key =
      r.recordAfter (fun i => t.kept (.utc i)) (t.find? key) (r.relevant samples) := by
  obtain ⟨d, hd, hinstant⟩ := Rule.gated_iff.mp hg
  obtain ⟨w, hw⟩ := h.span d hd hinstant
  rw [recordAfter_eq h.relevant_ne_nil]
  change _ = (r.trailing samples).head?.map _
  cases hrun : ActiveRun.find r samples with
  | error e =>
    rw [h.find_ok] at hrun
    cases hrun
  | ok out =>
    cases out with
    | none => simp [verdict, hk, hrun, hg, hr.find?_clear, ActiveRun.find_none hrun]
    | some run =>
      obtain ⟨hfirst, hlatest, -⟩ := ActiveRun.find_some hrun
      have hmem := (mem_trailing (List.mem_of_getLast? hlatest)).1
      have hleft := (ripe_reading hr (h.zoned key hk) hd hinstant hw (h.read _ hmem)
        (h.dated _ (mem_trailing (List.mem_of_mem_head? hfirst)).1) (h.dated _ hmem)).2
      have hverdict : (r.verdict unit samples t).2 = (r.ripe key run t).2 := by
        unfold verdict
        rw [hk, hrun]
        dsimp only
        split
        next h => rw [h]
        next h => rw [h]
        next h => rw [h]
      rw [hverdict, hleft, hfirst, interrupted_eq hrun]
      cases (r.relevant samples).all r.trueAt <;> rfl

/-- The instant of a record. -/
def startOf (record : Option Stamp) : Option Instant := record.map fun s => s.wall - s.offset.getD 0

theorem startOf_kept (t : Timers) (i : Instant) : startOf (some (t.kept (.utc i))) = some i := by
  unfold startOf Timers.kept
  split <;> simp [Stamp.utc]

theorem startOf_recordAfter (hne : r.relevant samples ≠ []) (key : TimerKey) :
    startOf (r.recordAfter (fun i => t.kept (.utc i)) (t.find? key) (r.relevant samples)) =
      (r.trailing samples).head?.map (r.countsFrom samples (t.start? key)) := by
  rw [recordAfter_eq hne]
  change startOf ((r.trailing samples).head?.map _) = _
  cases (r.trailing samples).head? with
  | none => rfl
  | some first =>
    have hkept := startOf_kept t first.time
    rw [Option.map_some, Option.map_some, countsFrom]
    cases (r.relevant samples).all r.trueAt with
    | false => exact hkept
    | true =>
      cases hf : t.find? key with
      | none => simpa [Timers.start?, hf] using hkept
      | some s => simp [Timers.start?, hf, startOf]

/-- Whether a gated rule stands at the end of a batch of readings is told by the latest of them and
by the record that they leave. -/
theorem stands_iff_recordAfter (hg : r.gated = true) (hread : latest.kind ≠ .computed)
    (hk : r.timerKey unit = .ok key) :
    r.Stands unit samples t latest ↔
      r.enabled = true ∧ (r.relevant samples).getLast? = some latest ∧ r.trueAt latest = true ∧
        ∃ d w start, r.duration = some d ∧ d.span = .ok w ∧
          startOf (r.recordAfter (fun i => t.kept (.utc i)) (t.find? key) (r.relevant samples)) =
            some start ∧ w ≤ latest.time - start := by
  have hne (hlast : (r.relevant samples).getLast? = some latest) : r.relevant samples ≠ [] := by
    intro h
    rw [h] at hlast
    cases hlast
  constructor
  · intro hs
    obtain ⟨key', first, d, w, hk', hfirst, hd, hw, hle⟩ := hs.lasted hg hread
    obtain rfl : key = key' := Except.ok.inj (hk.symm.trans hk')
    refine ⟨hs.enabled, hs.last, hs.holds, d, w, _, hd, hw, ?_, hle⟩
    rw [startOf_recordAfter (hne hs.last), hfirst]
    rfl
  · rintro ⟨hon, hlast, hholds, d, w, start, hd, hw, hstart, hle⟩
    rw [startOf_recordAfter (hne hlast)] at hstart
    obtain ⟨first, hfirst, rfl⟩ := Option.map_eq_some_iff.mp hstart
    exact ⟨hon, hlast, hholds, fun _ _ => ⟨key, first, d, w, hk, hfirst, hd, hw, hle⟩⟩

/-- What a gated rule finds at the end of a batch is told by the latest sample and the record. -/
theorem Takes.matchAt_congr {samples' : List Sample} {u : Timers} (h : r.Takes unit samples t)
    (h' : r.Takes unit samples' u) (hr : t.Reliable) (hu : u.Reliable) (hg : r.gated = true)
    (hk : r.timerKey unit = .ok key)
    (hlast : (r.relevant samples).getLast? = (r.relevant samples').getLast?)
    (hrecord : r.recordAfter (fun i => t.kept (.utc i)) (t.find? key) (r.relevant samples) =
      r.recordAfter (fun i => u.kept (.utc i)) (u.find? key) (r.relevant samples')) :
    r.matchAt unit samples t = r.matchAt unit samples' u := by
  have hsame (latest : Sample) :
      r.Stands unit samples t latest ↔ r.Stands unit samples' u latest := by
    by_cases hmem : (r.relevant samples).getLast? = some latest
    · have hread := h.read _ (mem_relevant.mp (List.mem_of_getLast? hmem)).1
      rw [stands_iff_recordAfter hg hread hk, stands_iff_recordAfter hg hread hk, hlast, hrecord]
    · constructor
      · exact fun hs => absurd hs.last hmem
      · exact fun hs => absurd (hlast.trans hs.last) hmem
  refine Option.ext fun m => ?_
  rw [matchAt_eq_some_iff hr (fun _ => h.toEvaluable) h.dated,
    matchAt_eq_some_iff hu (fun _ => h'.toEvaluable) h'.dated, hsame]

end MasterRule

/-! ## One batch after the other -/

/-- Arbitrates one batch after the other until one fails; what comes of the last of them. -/
def arbitrateInTurn (unit : String) (rules : List MasterRule) :
    List Sample → List (List Sample) → Timers → Except Failure Arbitration × Timers
  | batch, [], t => arbitrate unit batch rules t
  | batch, next :: rest, t =>
    match arbitrate unit batch rules t with
    | (.error e, u) => (.error e, u)
    | (.ok _, u) => arbitrateInTurn unit rules next rest u

section Single

variable {r : MasterRule} {unit : String} {t : Timers} {front back : List Sample}

theorem relevant_append (h : (front ++ back).Pairwise fun a b => a.time ≤ b.time) :
    r.relevant (front ++ back) = r.relevant front ++ r.relevant back := by
  obtain ⟨hfront, hback, -⟩ := List.pairwise_append.mp h
  simp only [MasterRule.relevant, Sample.sorted_of_ordered h, Sample.sorted_of_ordered hfront,
    Sample.sorted_of_ordered hback, List.filter_append]

theorem arbitrate_singleton_snd (samples : List Sample) :
    (arbitrate unit samples [r] t).2 =
      if r.enabled then (r.verdict unit samples t).2 else t := by
  unfold arbitrate arbitrateFrom
  split
  next =>
    split
    next h => rw [h]
    next h => rw [h]; rfl
    next h =>
      rw [h]
      split <;> rfl
  next => rfl

theorem find?_arbitrate_singleton {key : TimerKey} (h : r.Takes unit front t) (hr : t.Reliable)
    (hg : r.gated = true) (hon : r.enabled = true) (hk : r.timerKey unit = .ok key) :
    (arbitrate unit front [r] t).2.find? key =
      r.recordAfter (fun i => t.kept (.utc i)) (t.find? key) (r.relevant front) := by
  rw [arbitrate_singleton_snd, if_pos hon]
  exact h.find?_verdict hr hg hk

theorem arbitrate_singleton_moves (r : MasterRule) (unit : String) (samples : List Sample)
    (t : Timers) :
    Timers.Moves (fun k => r.timerKey unit = .ok k) t (arbitrate unit samples [r] t).2 := by
  refine (arbitrateFrom_moves unit samples [] [r] t).mono ?_
  rintro k ⟨q, hq, hk⟩
  rw [List.mem_singleton.mp hq] at hk
  exact hk

theorem MasterRule.Takes.after (hfront : r.Takes unit front t) (hback : r.Takes unit back t)
    (hr : t.Reliable) (hg : r.gated = true) :
    r.Takes unit back (arbitrate unit front [r] t).2 := by
  have hmoves := arbitrate_singleton_moves r unit front t
  refine ⟨⟨hback.values, hback.key, hback.span, ?_⟩, hback.dated, hback.read, hback.looks⟩
  intro key hk s hs
  rw [Timers.recalled_congr hmoves.durable_eq]
  by_cases hon : r.enabled = true
  · rw [find?_arbitrate_singleton hfront hr hg hon hk,
      MasterRule.recordAfter_eq hfront.relevant_ne_nil] at hs
    obtain ⟨first, -, hs⟩ := Option.map_eq_some_iff.mp hs
    have hkept : (t.recalled (t.kept (.utc first.time))).offset ≠ none := by
      rw [Timers.recalled_kept_utc]
      exact Option.some_ne_none 0
    split at hs
    next =>
      cases hf : t.find? key with
      | none =>
        rw [hf] at hs
        rw [← hs]
        exact hkept
      | some old =>
        rw [hf] at hs
        rw [← hs]
        exact hfront.zoned key hk old hf
    next =>
      rw [← hs]
      exact hkept
  · rw [arbitrate_singleton_snd, if_neg hon] at hs
    exact hfront.zoned key hk s hs

/-- Two batches of readings that follow each other are arbitrated like one. -/
theorem arbitrate_append (hfront : r.Takes unit front t) (hback : r.Takes unit back t)
    (hr : t.Reliable) (hg : r.gated = true)
    (hordered : (front ++ back).Pairwise fun a b => a.time ≤ b.time) :
    (arbitrate unit back [r] (arbitrate unit front [r] t).2).1 =
        (arbitrate unit (front ++ back) [r] t).1 ∧
      ∀ key, (arbitrate unit back [r] (arbitrate unit front [r] t).2).2.find? key =
        (arbitrate unit (front ++ back) [r] t).2.find? key := by
  obtain ⟨own, hown⟩ := hfront.key
  have hboth := hfront.append hback
  have hafter := hfront.after hback hr hg
  have hmoves := arbitrate_singleton_moves r unit front t
  by_cases hon : r.enabled = true
  · have hu := hmoves.reliable hr
    have hwhole := find?_arbitrate_singleton hboth hr hg hon hown
    have hrecord : r.recordAfter (fun i => (arbitrate unit front [r] t).2.kept (.utc i))
          ((arbitrate unit front [r] t).2.find? own) (r.relevant back) =
        r.recordAfter (fun i => t.kept (.utc i)) (t.find? own) (r.relevant (front ++ back)) := by
      have hkept : (fun i => (arbitrate unit front [r] t).2.kept (.utc i)) =
          fun i => t.kept (.utc i) := funext fun i => Timers.kept_congr hmoves.durable_eq _
      rw [hkept, find?_arbitrate_singleton hfront hr hg hon hown, relevant_append hordered,
        MasterRule.recordAfter_append]
    have hothers (key : TimerKey) (hne : ¬ r.timerKey unit = .ok key) :=
      @Timers.Moves.find?_other _ _ _ hmoves key hne
    generalize (arbitrate unit front [r] t).2 = u at hafter hu hrecord hothers ⊢
    have hlast : (r.relevant back).getLast? = (r.relevant (front ++ back)).getLast? := by
      rw [relevant_append hordered, List.getLast?_append_of_ne_nil _ hback.relevant_ne_nil]
    have hmatch : standing unit back [r] u = standing unit (front ++ back) [r] t := by
      rw [standing_cons, standing_cons,
        hafter.matchAt_congr hboth hu hr hg hown hlast hrecord]
      rfl
    constructor
    · rw [arbitrate_ok hu (List.pairwise_singleton _ _) (by simpa using fun _ => hafter.toEvaluable)
        hafter.dated, hmatch, arbitrate_ok hr (List.pairwise_singleton _ _)
        (by simpa using fun _ => hboth.toEvaluable) hboth.dated]
    · intro key
      by_cases hk : r.timerKey unit = .ok key
      · rw [find?_arbitrate_singleton hafter hu hg hon hk,
          find?_arbitrate_singleton hboth hr hg hon hk]
        obtain rfl : own = key := Except.ok.inj (hown.symm.trans hk)
        exact hrecord
      · rw [(arbitrate_singleton_moves r unit back u).find?_other hk, hothers key hk,
          (arbitrate_singleton_moves r unit (front ++ back) t).find?_other hk]
  · -- a rule that is not enabled is not looked at
    have hsame (samples : List Sample) (v : Timers) :
        arbitrate unit samples [r] v = (.ok ⟨none, []⟩, v) := by
      simp [arbitrate, arbitrateFrom, hon]
    rw [hsame, hsame, hsame]
    exact ⟨rfl, fun _ => rfl⟩

theorem MasterRule.Takes.flatten {batch : List Sample} {rest : List (List Sample)}
    (h : ∀ b ∈ batch :: rest, r.Takes unit b t) : r.Takes unit (batch :: rest).flatten t := by
  induction rest generalizing batch with
  | nil => simpa using h
  | cons next rest ih =>
    rw [List.flatten_cons]
    exact (h batch List.mem_cons_self).append (ih fun b hb => h b (List.mem_cons_of_mem batch hb))

/-- Wherever the readings of a unit are cut into batches that the rule takes, arbitrating them in turn
gives at the end what one arbitration of all readings gives, and leaves the same records. -/
theorem arbitrateInTurn_eq_whole {batch : List Sample} {rest : List (List Sample)}
    (hr : t.Reliable) (hg : r.gated = true)
    (hordered : (batch :: rest).flatten.Pairwise fun a b => a.time ≤ b.time)
    (htakes : ∀ b ∈ batch :: rest, r.Takes unit b t) :
    ∃ a u v, arbitrateInTurn unit [r] batch rest t = (.ok a, u) ∧
      arbitrate unit (batch :: rest).flatten [r] t = (.ok a, v) ∧
      ∀ key, u.find? key = v.find? key := by
  induction rest generalizing batch t with
  | nil =>
    have hbatch := htakes batch List.mem_cons_self
    have hok := arbitrate_ok hr (List.pairwise_singleton _ r)
      (by simpa using fun _ => hbatch.toEvaluable) hbatch.dated
    exact ⟨_, _, _, Prod.ext hok rfl, Prod.ext (by simpa using hok) rfl,
      fun _ => by simp [arbitrateInTurn]⟩
  | cons next rest ih =>
    have hbatch := htakes batch List.mem_cons_self
    have hrest : ∀ b ∈ next :: rest, r.Takes unit b t :=
      fun b hb => htakes b (List.mem_cons_of_mem batch hb)
    have hok := arbitrate_ok hr (List.pairwise_singleton _ r)
      (by simpa using fun _ => hbatch.toEvaluable) hbatch.dated
    have hreliable := (arbitrate_singleton_moves r unit batch t).reliable hr
    have htail : (next :: rest).flatten.Pairwise fun a b => a.time ≤ b.time :=
      (List.pairwise_append.mp hordered).2.1
    obtain ⟨a, u, v, hturn, hwhole, hrecords⟩ := ih hreliable htail
      fun b hb => hbatch.after (hrest b hb) hr hg
    obtain ⟨hresult, hfind⟩ := arbitrate_append hbatch (MasterRule.Takes.flatten hrest) hr hg hordered
    rw [hwhole] at hresult hfind
    refine ⟨a, u, (arbitrate unit (batch ++ (next :: rest).flatten) [r] t).2, ?_, ?_, ?_⟩
    · have hpair : arbitrate unit batch [r] t = (.ok _, _) := Prod.ext hok rfl
      rw [arbitrateInTurn, hpair]
      exact hturn
    · exact Prod.ext hresult.symm rfl
    · intro key
      rw [hrecords key, hfind key]

end Single

/-! ## A silence in three batches -/

theorem silence_takes {batch : List Sample}
    (hvalues : ∀ s ∈ batch, (silence.holdsAt s.value).isOk = true) (hdated : ∀ s ∈ batch, s.Dated)
    (hread : ∀ s ∈ batch, s.kind ≠ .computed) (hlooks : ∃ s ∈ batch, silence.concerns s = true) :
    silence.Takes "101" batch silent :=
  ⟨silence_evaluable hvalues, hdated, hread, hlooks⟩

/-- The unit speaks between two silences, at the time at which the second one begins. -/
theorem silence_in_three_batches :
    ∃ a u v, arbitrateInTurn "101" [silence] [.reading "Tag8" 0 5, .reading "Tag8" 1 10]
        [[.reading "Tag8" 0 10, .reading "Tag16" 0 20], [.reading "Tag8" 0 40]] silent = (.ok a, u) ∧
      arbitrate "101" [.reading "Tag8" 0 5, .reading "Tag8" 1 10, .reading "Tag8" 0 10,
        .reading "Tag16" 0 20, .reading "Tag8" 0 40] [silence] silent = (.ok a, v) ∧
      ∀ key, u.find? key = v.find? key := by
  refine arbitrateInTurn_eq_whole silent_reliable (by decide +kernel) (by decide) ?_
  intro b hb
  simp only [List.mem_cons, List.not_mem_nil, or_false] at hb
  rcases hb with rfl | rfl | rfl
  all_goals exact silence_takes (by decide +kernel) (by decide) (by decide) (by decide +kernel)

end FaultDesk
