import FaultDesk.Proofs.Selection.Hits

/-!
Hits and later samples. Among samples in order of time a later one changes nothing about the hits before
it, unless it is the first that asks for past readings and these cannot be put in form: then all hits of
the block are lost.
-/

namespace FaultDesk

namespace Selector

variable {sel : Selector} {unit : String} {samples : List Sample} {t : Timers} {i : Instant}
  {e : Failure}

/-- The samples of a block up to an instant come first, with all that is related to them. -/
theorem withRelated_until (hordered : samples.Pairwise fun a b => a.time ≤ b.time) (i : Instant) :
    ∃ later : List (Sample × List Sample),
      later.map (·.1) = samples.filter (fun s => decide (i < s.time)) ∧
      withRelated [] samples =
        withRelated [] (samples.filter fun s => decide (s.time ≤ i)) ++ later := by
  have hapart : ∀ s ∈ samples.filter (fun s => decide (s.time ≤ i)),
      ∀ q ∈ samples.filter (fun s => decide (i < s.time)), s.time < q.time := by
    intro s hs q hq
    have hle : s.time ≤ i := of_decide_eq_true (List.mem_filter.mp hs).2
    have hlt : i < q.time := of_decide_eq_true (List.mem_filter.mp hq).2
    exact Int.lt_of_le_of_lt hle hlt
  have hwhole := withRelated_append [] _ _ hapart
  rw [← Sample.split_at hordered i] at hwhole
  exact ⟨_, map_fst_withRelated _ _, hwhole⟩

/-- The hits up to an instant are there whatever samples are later, and there are no others up to it. -/
theorem hits_until (hordered : samples.Pairwise fun a b => a.time ≤ b.time) (i : Instant) :
    (sel.search unit (withRelated [] samples) ⟨t, none, []⟩).2.hits.filter
        (fun c => decide (c.time ≤ i)) =
      (sel.search unit (withRelated [] (samples.filter fun s => decide (s.time ≤ i)))
        ⟨t, none, []⟩).2.hits := by
  obtain ⟨later, hlater, hwhole⟩ := withRelated_until hordered i
  generalize hpairs : withRelated [] (samples.filter fun s => decide (s.time ≤ i)) = pairs at hwhole ⊢
  have hearly : ∀ c ∈ (sel.search unit pairs ⟨t, none, []⟩).2.hits, c.time ≤ i := by
    obtain ⟨found, hhits, hturn⟩ := @hits_in_turn sel unit pairs ⟨t, none, []⟩
    intro c hc
    rw [hhits, List.nil_append] at hc
    rw [← hpairs, map_fst_withRelated] at hturn
    obtain ⟨s, hs, htime⟩ := Gives.times hturn hc
    have hle := (List.mem_filter.mp hs).2
    rw [htime]
    exact of_decide_eq_true hle
  rw [hwhole, search_append]
  generalize sel.search unit pairs ⟨t, none, []⟩ = out at hearly ⊢
  obtain ⟨failure, u⟩ := out
  have hkept : u.hits.filter (fun c => decide (c.time ≤ i)) = u.hits :=
    List.filter_eq_self.mpr fun c hc => decide_eq_true (hearly c hc)
  cases failure with
  | some e => exact hkept
  | none =>
    obtain ⟨found, hhits, hturn⟩ := @hits_in_turn sel unit later u
    have hnone : found.flatten.filter (fun c => decide (c.time ≤ i)) = [] := by
      refine List.filter_eq_nil_iff.mpr fun c hc => ?_
      rw [hlater] at hturn
      obtain ⟨s, hs, htime⟩ := Gives.times hturn hc
      have hlt : i < s.time := of_decide_eq_true (List.mem_filter.mp hs).2
      rw [← htime] at hlt
      simpa using hlt
    dsimp only
    rw [hhits, List.filter_append, hkept, hnone, List.append_nil]

theorem mem_until {s : Sample} :
    s ∈ samples.filter (fun s => decide (s.time ≤ i)) ↔ s ∈ samples ∧ s.time ≤ i := by
  simp

/-- What fails up to an instant fails in the whole block. -/
theorem error_of_until
    (h : sel.ordinaryHits unit (samples.filter fun s => decide (s.time ≤ i)) t = .error e) :
    sel.ordinaryHits unit samples t = .error e := by
  obtain ⟨⟨s, hs, hasks⟩, hform⟩ := ordinaryHits_error_iff.mp h
  exact ordinaryHits_error_iff.mpr ⟨⟨s, (mem_until.mp hs).1, hasks⟩, hform⟩

/-- What is hit in the whole block is hit up to the instant by the samples up to it. -/
theorem ok_of_whole (hordered : samples.Pairwise fun a b => a.time ≤ b.time) {hits : List Candidate}
    (h : sel.ordinaryHits unit samples t = .ok hits) :
    sel.ordinaryHits unit (samples.filter fun s => decide (s.time ≤ i)) t =
      .ok (hits.filter fun c => decide (c.time ≤ i)) := by
  cases hpart : sel.ordinaryHits unit (samples.filter fun s => decide (s.time ≤ i)) t with
  | error e =>
    rw [error_of_until hpart] at h
    cases h
  | ok found =>
    have hhits := @hits_until sel unit samples t hordered i
    rw [hits_of_ordinaryHits h, hits_of_ordinaryHits hpart] at hhits
    rw [hhits]

/-- Hits up to an instant are lost where the first to ask for past readings, which cannot be put in form,
is later. -/
theorem lost_iff :
    (∃ hits, sel.ordinaryHits unit (samples.filter fun s => decide (s.time ≤ i)) t = .ok hits) ∧
        sel.ordinaryHits unit samples t = .error e ↔
      sel.historyOf unit = .error e ∧ (∃ s ∈ samples, i < s.time ∧ sel.asksHistory s = true) ∧
        ∀ s ∈ samples, s.time ≤ i → sel.asksHistory s = false := by
  constructor
  · rintro ⟨⟨hits, hok⟩, he⟩
    obtain ⟨⟨s, hs, hasks⟩, hform⟩ := ordinaryHits_error_iff.mp he
    have hsilent : ∀ q ∈ samples, q.time ≤ i → sel.asksHistory q = false := by
      intro q hq hle
      refine eq_false_of_ne_true fun hqasks => ?_
      have hfails := (@ordinaryHits_error_iff _ _ t _ _).mpr
        ⟨⟨q, mem_until.mpr ⟨hq, hle⟩, hqasks⟩, hform⟩
      rw [hok] at hfails
      cases hfails
    refine ⟨hform, ⟨s, hs, ?_, hasks⟩, hsilent⟩
    by_contra hle
    have hnot := hsilent s hs (Int.not_lt.mp hle)
    rw [hasks] at hnot
    cases hnot
  · rintro ⟨hform, ⟨s, hs, -, hasks⟩, hsilent⟩
    refine ⟨?_, ordinaryHits_error_iff.mpr ⟨⟨s, hs, hasks⟩, hform⟩⟩
    cases hpart : sel.ordinaryHits unit (samples.filter fun s => decide (s.time ≤ i)) t with
    | ok hits => exact ⟨hits, rfl⟩
    | error e' =>
      obtain ⟨⟨q, hq, hqasks⟩, -⟩ := ordinaryHits_error_iff.mp hpart
      obtain ⟨hmem, hle⟩ := mem_until.mp hq
      rw [hsilent q hmem hle] at hqasks
      cases hqasks

/-- Among samples in order of time the hits up to an instant are those that the samples up to it give
by themselves. All hits of the block are lost when past readings cannot be put in form; that is a matter
of later samples just where one of these asks for them and none up to the instant does. -/
theorem earlier_hits_stand (hordered : samples.Pairwise fun a b => a.time ≤ b.time) (i : Instant) :
    let part := samples.filter fun s => decide (s.time ≤ i)
    (sel.search unit (withRelated [] samples) ⟨t, none, []⟩).2.hits.filter
        (fun c => decide (c.time ≤ i)) =
      (sel.search unit (withRelated [] part) ⟨t, none, []⟩).2.hits ∧
    (∀ hits, sel.ordinaryHits unit samples t = .ok hits →
      sel.ordinaryHits unit part t = .ok (hits.filter fun c => decide (c.time ≤ i))) ∧
    (∀ e, sel.ordinaryHits unit part t = .error e → sel.ordinaryHits unit samples t = .error e) ∧
    ∀ e, ((∃ hits, sel.ordinaryHits unit part t = .ok hits) ∧
        sel.ordinaryHits unit samples t = .error e) ↔
      sel.historyOf unit = .error e ∧ (∃ s ∈ samples, i < s.time ∧ sel.asksHistory s = true) ∧
        ∀ s ∈ samples, s.time ≤ i → sel.asksHistory s = false :=
  ⟨hits_until hordered i, fun _ => ok_of_whole hordered, fun _ => error_of_until, fun _ => lost_iff⟩

/-! ## A lamp and a voltage -/

/-- A lamp that is on is a fault, and so is a voltage of which half the readings are low. -/
def lampAndVoltage : Datum :=
  .object [("ruleSets", .object
    [("diRules", .object [("rules", .list [.object [("tag", .text "Tag1"),
        ("condition", .text "equals"), ("value", .int 1)]])]),
      ("aiRules", .object [("rules", .list [.object [("kind", .text "rate"), ("tag", .text "Tag3"),
        ("condition", .text "lt"), ("value", .int 10), ("thresholdPercent", .int 50)]])])])]

/-- The lamp is seen before the voltage, and again behind it. -/
def lampVoltageLamp : List Sample :=
  [.reading "Tag1" 1 0, .reading "Tag3" 5 5, .reading "Tag1" 1 10]

/-- With the last reading or without it, the lamp and the voltage are hit at the first two. -/
theorem lamp_and_voltage_stay_hit :
    ∃ c, Config.check lampAndVoltage = .ok c ∧
      let sel := ofConfig c (some fun _ => [.reading "Tag3" 5 5]) twoDays
      ∃ hits, sel.ordinaryHits "101" lampVoltageLamp (.empty true) = .ok hits ∧
        hits.map (fun k => (k.tag, k.time)) = [("Tag1", 0), ("Tag3", 300000000), ("Tag1", 600000000)] ∧
        sel.ordinaryHits "101" (lampVoltageLamp.filter fun s => decide (s.time ≤ 300000000))
          (.empty true) = .ok (hits.filter fun k => decide (k.time ≤ 300000000)) := by
  have hfound : (Config.check lampAndVoltage).toOption.map (fun c =>
      ((ofConfig c (some fun _ => [.reading "Tag3" 5 5]) twoDays).ordinaryHits "101" lampVoltageLamp
        (.empty true)).toOption.map (·.map fun k => (k.tag, k.time))) =
      some (some [("Tag1", 0), ("Tag3", 300000000), ("Tag1", 600000000)]) := by decide +kernel
  obtain ⟨c, hc, hhits⟩ := ok_of_toOption hfound
  obtain ⟨hits, hok, htimes⟩ := ok_of_toOption hhits
  exact ⟨c, hc, hits, hok, htimes, (earlier_hits_stand (by decide) 300000000).2.1 hits hok⟩

theorem untabled_of_infinite {n : Int} {negative : Bool} (h : Double.ofInt n = .infinite negative)
    {tag : String} {minutes : Nat} :
    History.ofSamples [.reading tag n minutes] = .error .wholeTooLarge := by
  have hadd : ColumnKind.start.add (.int n) = .error .wholeTooLarge := by
    rw [ColumnKind.add, h, ColumnKind.addWhole]
  have htable : tabulated [.int n] = .error .wholeTooLarge := by
    rw [tabulated, ColumnKind.ofValues, hadd]
    rfl
  rw [History.ofSamples, List.map_singleton, List.map_singleton, List.map_singleton]
  show (tabulated [.int n] >>= _) = _
  rw [htable]
  rfl

/-- A past reading that no float can stand for is asked for at the second reading, and the hit at the
first is lost. -/
theorem lamp_hit_lost :
    ∃ c, Config.check lampAndVoltage = .ok c ∧
      let sel := ofConfig c (some fun _ => [.reading "Tag3" (Int.pow 10 400) 5]) twoDays
      let samples : List Sample := [.reading "Tag1" 1 0, .reading "Tag3" 5 5]
      samples.filter (fun s => decide (s.time ≤ 0)) = [.reading "Tag1" 1 0] ∧
        (∃ k, sel.ordinaryHits "101" [.reading "Tag1" 1 0] (.empty true) = .ok [k] ∧ k.tag = "Tag1") ∧
        sel.ordinaryHits "101" samples (.empty true) = .error .wholeTooLarge := by
  have hfound : (Config.check lampAndVoltage).toOption.map (fun c =>
      let sel := ofConfig c (some fun _ => [.reading "Tag3" (Int.pow 10 400) 5]) twoDays
      ((sel.ordinaryHits "101" [.reading "Tag1" 1 0] (.empty true)).toOption.map (·.map (·.tag)),
        sel.asksHistory (.reading "Tag3" 5 5))) = some (some ["Tag1"], true) := by decide +kernel
  obtain ⟨c, hc, hrun⟩ := ok_of_toOption hfound
  obtain ⟨hlamp, hasks⟩ := Prod.mk.inj hrun
  obtain ⟨hits, hok, htags⟩ := ok_of_toOption hlamp
  obtain ⟨k, rest, rfl, htag, hrest⟩ := List.map_eq_cons_iff.mp htags
  obtain rfl := List.map_eq_nil_iff.mp hrest
  have hlarge : Double.ofInt (Int.pow 10 400) = .infinite false := by decide +kernel
  exact ⟨c, hc, rfl, ⟨k, hok, htag⟩,
    ordinaryHits_error_iff.mpr ⟨⟨.reading "Tag3" 5 5, by simp, hasks⟩, untabled_of_infinite hlarge⟩⟩

end Selector

end FaultDesk
