import FaultDesk.Proofs.Matching.SoleRule
import FaultDesk.Proofs.Selection.Units

/-!
What a gated simple rule sees in the blocks of a selection, and what its record becomes. Samples that
the ordinary rules are not shown, because a master rule matches in their block or the selection has
come to its end, neither start nor drop its timer.
-/

namespace FaultDesk

/-! ## What is seen -/

/-- Samples in which nothing is seen. -/
def unseen (samples : List Sample) : List (Sample × Option Bool) := samples.map (·, none)

namespace Selector

/-- What a simple rule sees in samples that go through the ordinary rules. Nothing is seen behind a
sample at which past readings are asked for that cannot be put in form. -/
def seenOrdinary (sel : Selector) (r : Rule) (unit : String) :
    List (Sample × List Sample) → List (Sample × Option Bool)
  | [] => []
  | c :: rest =>
    (c.1, r.sight unit c) ::
      if sel.asksHistory c.1 && !(sel.historyOf unit).isOk then unseen (rest.map (·.1))
      else seenOrdinary sel r unit rest

/-- What a simple rule sees in a block: nothing where a master rule matches, or where one cannot be
judged. -/
def seenIn (sel : Selector) (r : Rule) (unit : String) (samples : List Sample) (t : Timers) :
    List (Sample × Option Bool) :=
  let buffer := Sample.sorted samples
  match (arbitrate unit buffer sel.masters t).1 with
  | .error _ => unseen buffer
  | .ok a =>
    if a.suppresses then unseen buffer else sel.seenOrdinary r unit (withRelated [] buffer)

/-- The samples of a unit in blocks, in the order in which they are judged. -/
def samplesAt (unit : String) (bs : List Block) : List Sample :=
  (bs.filter (·.unit = unit)).flatMap fun b => Sample.sorted b.samples

/-- What a simple rule sees at a unit in block after block. Nothing is seen behind a block that cannot
be judged, or when as many winners are found as are wanted. -/
def seenFrom (sel : Selector) (r : Rule) (unit : String) (given : List (String × String))
    (wanted : Option Nat) : List Block → Timers → List (Sample × Option Bool)
  | [], _ => []
  | b :: rest, t =>
    let f := sel.flush b.unit b.samples t
    (if b.unit = unit then sel.seenIn r unit b.samples t else []) ++
      match f.winners with
      | .error _ => unseen (samplesAt unit rest)
      | .ok cs =>
        let (_, given, wanted) := giveOut given wanted cs
        if wanted = some 0 then unseen (samplesAt unit rest)
        else seenFrom sel r unit given wanted rest f.timers

end Selector

theorem map_fst_unseen (samples : List Sample) : (unseen samples).map (·.1) = samples := by
  simp [unseen, Function.comp_def]

namespace Selector

variable {sel : Selector} {r : Rule} {unit : String}

theorem map_fst_seenOrdinary (pairs : List (Sample × List Sample)) :
    (sel.seenOrdinary r unit pairs).map (·.1) = pairs.map (·.1) := by
  induction pairs with
  | nil => rfl
  | cons c rest ih =>
    rw [seenOrdinary, List.map_cons, List.map_cons]
    split
    next => rw [map_fst_unseen]
    next => rw [ih]

theorem map_fst_seenIn (samples : List Sample) (t : Timers) :
    (sel.seenIn r unit samples t).map (·.1) = Sample.sorted samples := by
  simp only [seenIn]
  split
  next => exact map_fst_unseen _
  next =>
    split
    next => exact map_fst_unseen _
    next => rw [map_fst_seenOrdinary, map_fst_withRelated]

theorem map_fst_seenFrom (given : List (String × String)) (wanted : Option Nat) (bs : List Block)
    (t : Timers) : (sel.seenFrom r unit given wanted bs t).map (·.1) = samplesAt unit bs := by
  induction bs generalizing given wanted t with
  | nil => rfl
  | cons b rest ih =>
    have hhere : samplesAt unit (b :: rest) =
        (if b.unit = unit then sel.seenIn r unit b.samples t else []).map (·.1) ++
          samplesAt unit rest := by
      by_cases hb : b.unit = unit
      · simp [samplesAt, hb, map_fst_seenIn]
      · simp [samplesAt, hb]
    rw [seenFrom, List.map_append, hhere]
    congr 1
    split
    next => exact map_fst_unseen _
    next =>
      dsimp only
      split
      next => exact map_fst_unseen _
      next => exact ih _ _ _

end Selector

/-! ## Accounts of what is seen -/

/-- At a sample the condition is seen true, and it has been for the duration since the start of the
timer, or need not have been. -/
def Lasting (t : Timers) (d : Duration) (start : Option Stamp) (seen : List (Sample × Option Bool))
    (s : Sample) : Prop :=
  ∃ front back, seen = front ++ (s, some true) :: back ∧
    Timers.lasted d ((ticked (fun i => t.kept (.utc i)) start front).elim (.utc s.time) t.recalled)
      (.utc s.time) = .ok true

theorem Lasting.append_right {t : Timers} {d : Duration} {start : Option Stamp}
    {seen : List (Sample × Option Bool)} {s : Sample} (h : Lasting t d start seen s)
    (more : List (Sample × Option Bool)) : Lasting t d start (seen ++ more) s := by
  obtain ⟨front, back, rfl, hlasted⟩ := h
  exact ⟨front, back ++ more, by simp, hlasted⟩

/-- From some timers to others a rule has seen such samples at a unit, and such candidates have been
found: the condition is as it is seen, the record of the rule is what its sightings make of it, and
where the rule has found a candidate, its condition has lasted. -/
structure Judged (r : Rule) (d : Duration) (key : TimerKey) (t u : Timers)
    (seen : List (Sample × Option Bool)) (found : List Candidate) : Prop where
  moves : Timers.Moves (fun _ => True) t u
  sound : ∀ e ∈ seen, ∀ b, e.2 = some b → r.holdsFor e.1.value = .ok b
  record : u.find? key = ticked (fun i => t.kept (.utc i)) (t.find? key) seen
  lasting : ∀ c ∈ found, c.unit = key.unit → c.rule = .simple r →
    ∃ s, c = .ofSample s (.simple r) none ∧ Lasting t d (t.find? key) seen s

namespace Judged

variable {r : Rule} {d : Duration} {key : TimerKey} {t u v : Timers}
  {seen later : List (Sample × Option Bool)} {found more : List Candidate}

/-- Nothing is seen while the record is left alone. -/
theorem aside (hmoves : Timers.Moves (fun _ => True) t u) (hsame : u.find? key = t.find? key)
    (hunseen : ∀ e ∈ seen, e.2 = none)
    (hfound : ∀ c ∈ found, c.unit = key.unit → c.rule ≠ .simple r) :
    Judged r d key t u seen found where
  moves := hmoves
  sound e he b hb := by
    rw [hunseen e he] at hb
    cases hb
  record := by rw [hsame, ticked_unseen hunseen]
  lasting c hc hunit hrule := absurd hrule (hfound c hc hunit)

theorem refl (t : Timers) : Judged r d key t t [] [] := by
  refine aside (.refl t) rfl ?_ ?_
  · intro e he
    cases he
  · intro c hc
    cases hc

theorem trans (h : Judged r d key t u seen found) (h' : Judged r d key u v later more) :
    Judged r d key t v (seen ++ later) (found ++ more) where
  moves := h.moves.trans h'.moves
  sound e he := (List.mem_append.mp he).elim (h.sound e) (h'.sound e)
  record := by
    have hkept : (fun i => u.kept (.utc i)) = fun i => t.kept (.utc i) :=
      funext fun i => Timers.kept_congr h.moves.durable_eq (.utc i)
    rw [h'.record, hkept, h.record, ticked_append]
  lasting c hc hunit hrule := by
    rcases List.mem_append.mp hc with hc | hc
    · obtain ⟨s, hs, hlasting⟩ := h.lasting c hc hunit hrule
      exact ⟨s, hs, hlasting.append_right later⟩
    · obtain ⟨s, hs, front, back, rfl, hlasted⟩ := h'.lasting c hc hunit hrule
      refine ⟨s, hs, seen ++ front, back, by simp, ?_⟩
      have hkept : (fun i => u.kept (.utc i)) = fun i => t.kept (.utc i) :=
        funext fun i => Timers.kept_congr h.moves.durable_eq (.utc i)
      have hrecalled : u.recalled = t.recalled :=
        funext fun x => Timers.recalled_congr h.moves.durable_eq x
      rw [hkept, hrecalled, h.record, ← ticked_append] at hlasted
      exact hlasted

theorem mono (h : Judged r d key t u seen found) (hsub : ∀ c ∈ more, c ∈ found) :
    Judged r d key t u seen more where
  moves := h.moves
  sound := h.sound
  record := h.record
  lasting c hc := h.lasting c (hsub c hc)

end Judged

/-! ## One sample -/

/-- A gated simple rule of a selector that is the only ordinary rule of its tag, with a key at a unit
that it shares with no master rule. -/
structure Selector.Owns (sel : Selector) (r : Rule) (d : Duration) (key : TimerKey) : Prop where
  mem : r ∈ sel.simple
  sole : (sel.simple.map (·.tag) ++ sel.rate.map (·.tag)).Nodup
  apart : ∀ m ∈ sel.masters, m.timerKey key.unit ≠ .ok key
  duration : r.duration = some d
  lasts : d.isInstant = false
  timed : r.timerKey key.unit = .ok key

section OneSample

variable {sel : Selector} {r : Rule} {d : Duration} {key : TimerKey} {s : Sample}
  {related : List Sample} {st : Search}

theorem Selector.Owns.split (h : sel.Owns r d key) :
    ∃ before after, sel.simple = before ++ r :: after ∧ ∀ q ∈ before ++ after, q.tag ≠ r.tag := by
  obtain ⟨before, after, hsplit⟩ := List.append_of_mem h.mem
  refine ⟨before, after, hsplit, ?_⟩
  have hnodup := (List.nodup_append.mp h.sole).1
  rw [hsplit, List.map_append, List.map_cons, List.nodup_middle, ← List.map_append] at hnodup
  intro q hq htag
  exact (List.nodup_cons.mp hnodup).1 (List.mem_map.mpr ⟨q, hq, htag⟩)

theorem Selector.Owns.rate_tag (h : sel.Owns r d key) : ∀ q ∈ sel.rate, q.tag ≠ r.tag := by
  intro q hq htag
  have hdisjoint := (List.nodup_append.mp h.sole).2.2
  exact hdisjoint _ (List.mem_map_of_mem h.mem) _ (List.mem_map_of_mem hq) htag.symm

/-- The position at which a rule matches that is the only one of its tag. -/
theorem position_of_firstMatch_sole {before after : List Rule} {p : Nat} {t : Timers}
    (hsole : ∀ q ∈ before ++ after, q.tag ≠ r.tag)
    (h : (firstMatch s related (before ++ r :: after) t).1 = some (p, r)) : p = before.length := by
  have hp := (firstMatch_some h).1
  rcases Nat.lt_trichotomy p before.length with hlt | heq | hgt
  · rw [List.getElem?_append_left hlt] at hp
    exact absurd rfl (hsole r (List.mem_append_left _ (List.mem_of_getElem? hp)))
  · exact heq
  · obtain ⟨k, rfl⟩ : ∃ k, p = before.length + (k + 1) := ⟨p - before.length - 1, by omega⟩
    rw [List.getElem?_append_right (by omega), Nat.add_sub_cancel_left,
      List.getElem?_cons_succ] at hp
    exact absurd rfl (hsole r (List.mem_append_right _ (List.mem_of_getElem? hp)))

theorem Selector.trySimple_judged (h : sel.Owns r d key) (hr : st.timers.Reliable) (hs : s.Dated) :
    ∃ found, (sel.trySimple s related st).hits = st.hits ++ found ∧
      Judged r d key st.timers (sel.trySimple s related st).timers
        [(s, r.sight key.unit (s, related))] found := by
  obtain ⟨before, after, hsplit, hsole⟩ := h.split
  have hg : r.gated = true := Rule.gated_iff.mpr ⟨d, h.duration, h.lasts⟩
  have hmoves : Timers.Moves (fun _ => True) st.timers
      (firstMatch s related sel.simple st.timers).2 :=
    (firstMatch_moves s related sel.simple st.timers).mono fun _ _ => trivial
  have hrecord : (firstMatch s related sel.simple st.timers).2.find? key =
      ticked (fun i => st.timers.kept (.utc i)) (st.timers.find? key)
        [(s, r.sight key.unit (s, related))] := by
    rw [hsplit]
    exact find?_firstMatch_sight hsole hr hg h.timed hs
  have hsound : ∀ e ∈ [(s, r.sight key.unit (s, related))], ∀ b, e.2 = some b →
      r.holdsFor e.1.value = .ok b := by
    intro e he b hb
    obtain rfl := List.mem_singleton.mp he
    exact (Rule.sight_eq_some_iff.mp hb).2.2
  unfold trySimple
  split
  next u hm =>
    rw [hm] at hmoves hrecord
    refine ⟨[], (List.append_nil _).symm, hmoves, hsound, hrecord, ?_⟩
    intro c hc
    cases hc
  next p q u hm =>
    have hmatch : (firstMatch s related sel.simple st.timers).1 = some (p, q) := by rw [hm]
    rw [hm] at hmoves hrecord
    refine ⟨[.ofSample s (.simple q) none], rfl, hmoves, hsound, hrecord, ?_⟩
    intro c hc hunit hrule
    obtain rfl := List.mem_singleton.mp hc
    obtain rfl : q = r := AnyRule.simple.inj hrule
    have hw : q.watches s = true := (firstMatch_some hmatch).2.1
    have hsees : q.sees key.unit s = true := Rule.sees_iff.mpr ⟨hunit, hw⟩
    rw [hsplit] at hmatch
    obtain rfl := position_of_firstMatch_sole hsole hmatch
    obtain ⟨hsight, hlasted⟩ := (Rule.verdict_true_sight_iff hr h.duration h.lasts h.timed hsees hs).mp
      ((firstMatch_sole hsole hw).2.mp hmatch)
    exact ⟨s, rfl, [], [], by rw [hsight]; rfl, hlasted⟩

/-- Rate rules leave the record of a simple rule alone. -/
theorem Selector.tryRate_judged (h : sel.Owns r d key) (past : History) :
    ∃ found, (sel.tryRate s related past st).hits = st.hits ++ found ∧
      Judged r d key st.timers (sel.tryRate s related past st).timers [] found := by
  have hmoves : Timers.Moves (fun k => ∃ q ∈ sel.rate, q.timerKey s.unit = .ok k) st.timers
      (firstRateIn s related past sel.now sel.rate st.timers).2 := by
    refine (rateFrom_moves (sel.rate.filter fun q => q.watches s) st.timers).mono ?_
    rintro k ⟨q, hq, hk⟩
    exact ⟨q, (List.mem_filter.mp hq).1, hk⟩
  have hother : ¬ ∃ q ∈ sel.rate, q.timerKey s.unit = .ok key := by
    rintro ⟨q, hq, hk⟩
    exact h.rate_tag q hq ((Rule.timerKey_fields hk).2.symm.trans (Rule.timerKey_fields h.timed).2)
  have haside {found : List Candidate}
      (hfound : ∀ c ∈ found, c.unit = key.unit → c.rule ≠ .simple r) :
      Judged r d key st.timers (firstRateIn s related past sel.now sel.rate st.timers).2 [] found :=
    .aside (hmoves.mono fun _ _ => trivial) (hmoves.find?_other hother) (by simp) hfound
  unfold tryRate
  split
  next u hrate =>
    rw [hrate] at haside
    exact ⟨[], (List.append_nil _).symm, haside (by simp)⟩
  next c u hrate =>
    rw [hrate] at haside
    refine ⟨[c], rfl, haside ?_⟩
    intro c' hc' _
    obtain ⟨q, stats, hc⟩ := found_of_rateFrom (congrArg Prod.fst hrate)
    obtain rfl : c' = c := List.mem_singleton.mp hc'
    rw [hc]
    simp [Candidate.ofSample]

end OneSample

/-! ## One block -/

theorem unseen_none {samples : List Sample} : ∀ e ∈ unseen samples, e.2 = none := by
  intro e he
  obtain ⟨s, -, rfl⟩ := List.mem_map.mp he
  rfl

/-- The candidates of a block; none where it cannot be judged. -/
def Flush.found (f : Flush) : List Candidate :=
  match f.winners with
  | .error _ => []
  | .ok cs => cs

section OneBlock

variable {sel : Selector} {r : Rule} {d : Duration} {key : TimerKey} {samples : List Sample}
  {t : Timers} {st : Search}

theorem Selector.search_judged (h : sel.Owns r d key) {pairs : List (Sample × List Sample)}
    (hr : st.timers.Reliable) (hdated : ∀ c ∈ pairs, c.1.Dated)
    (hpast : ∀ past, st.history = some past → sel.historyOf key.unit = .ok past) :
    ∃ found, (sel.search key.unit pairs st).2.hits = st.hits ++ found ∧
      Judged r d key st.timers (sel.search key.unit pairs st).2.timers
        (sel.seenOrdinary r key.unit pairs) found := by
  induction pairs generalizing st with
  | nil => exact ⟨[], (List.append_nil _).symm, .refl _⟩
  | cons c rest ih =>
    obtain ⟨s, related⟩ := c
    have hrest : ∀ c ∈ rest, c.1.Dated := fun c hc => hdated c (List.mem_cons_of_mem _ hc)
    have hsame : (sel.trySimple s related st).history = st.history := by
      unfold trySimple
      split <;> rfl
    obtain ⟨found, hhits, hsimple⟩ :=
      @trySimple_judged sel r d key s related st h hr (hdated _ List.mem_cons_self)
    have hr' := hsimple.moves.reliable hr
    -- a rate rule goes on from where the simple rules have left off
    have hrate {past : History} (hok : sel.historyOf key.unit = .ok past) :
        ∃ found, (sel.search key.unit rest
            (sel.tryRate s related past (sel.trySimple s related st))).2.hits = st.hits ++ found ∧
          Judged r d key st.timers (sel.search key.unit rest
            (sel.tryRate s related past (sel.trySimple s related st))).2.timers
            ((s, r.sight key.unit (s, related)) :: sel.seenOrdinary r key.unit rest) found := by
      obtain ⟨found', hhits', hjudged⟩ :=
        @tryRate_judged sel r d key s related (sel.trySimple s related st) h past
      have hkept : (sel.tryRate s related past (sel.trySimple s related st)).history = some past := by
        unfold tryRate
        split <;> rfl
      obtain ⟨found'', hhits'', hlater⟩ := ih (hjudged.moves.reliable hr') hrest fun past' h' => by
        rw [hkept] at h'
        rw [← Option.some.inj h', hok]
      refine ⟨found ++ (found' ++ found''), ?_, hsimple.trans (hjudged.trans hlater)⟩
      rw [hhits'', hhits', hhits, List.append_assoc, List.append_assoc]
    cases hasks : sel.asksHistory s with
    | false =>
      obtain ⟨found', hhits', hlater⟩ := ih hr' hrest fun past h' => hpast past (hsame ▸ h')
      simp only [search, hasks, seenOrdinary, Bool.false_and, Bool.false_eq_true, ↓reduceIte]
      exact ⟨found ++ found', by rw [hhits', hhits, List.append_assoc], hsimple.trans hlater⟩
    | true =>
      cases hhistory : st.history with
      | some past =>
        have hok := hpast past hhistory
        simp only [search, hasks, hsame, hhistory, seenOrdinary, hok, Except.isOk, Except.toBool,
          Bool.not_true, Bool.and_false, Bool.false_eq_true, ↓reduceIte]
        exact hrate hok
      | none =>
        cases hof : sel.historyOf key.unit with
        | ok past =>
          simp only [search, hasks, hsame, hhistory, seenOrdinary, hof, Except.isOk, Except.toBool,
            Bool.not_true, Bool.and_false, Bool.false_eq_true, ↓reduceIte]
          exact hrate hof
        | error e =>
          simp only [search, hasks, hsame, hhistory, seenOrdinary, hof, Except.isOk, Except.toBool,
            Bool.not_false, Bool.and_true, ↓reduceIte]
          refine ⟨found, hhits, ?_⟩
          have hbehind : Judged r d key (sel.trySimple s related st).timers
              (sel.trySimple s related st).timers (unseen (rest.map (·.1))) [] :=
            .aside (.refl _) rfl unseen_none (by simp)
          have hall := hsimple.trans hbehind
          rwa [List.append_nil] at hall

theorem Selector.flushOrdinary_judged (h : sel.Owns r d key) (hr : t.Reliable)
    (hdated : ∀ s ∈ samples, s.Dated) :
    Judged r d key t (sel.flushOrdinary key.unit samples t).timers
      (sel.seenOrdinary r key.unit (withRelated [] samples))
      (sel.flushOrdinary key.unit samples t).found := by
  obtain ⟨found, hhits, hjudged⟩ := @search_judged sel r d key ⟨t, none, []⟩ h
    (withRelated [] samples) hr (fun c hc => hdated _ (mem_of_withRelated hc)) (by simp)
  unfold flushOrdinary Flush.found
  split
  next e st hsearch =>
    rw [hsearch] at hjudged
    exact hjudged.mono (by simp)
  next st hsearch =>
    rw [hsearch] at hhits hjudged
    obtain rfl : st.hits = found := hhits.trans (List.nil_append found)
    exact hjudged.mono fun c hc => WinnerPolicy.mem_of_winners hc

/-- A block that a master rule matches in, or that cannot be judged, leaves the record alone. -/
theorem Selector.flush_judged (h : sel.Owns r d key) (hr : t.Reliable)
    (hdated : ∀ s ∈ samples, s.Dated) :
    Judged r d key t (sel.flush key.unit samples t).timers (sel.seenIn r key.unit samples t)
      (sel.flush key.unit samples t).found := by
  cases samples with
  | nil =>
    have hnone : sel.seenIn r key.unit [] t = [] := by
      simp only [seenIn, Sample.sorted_of_ordered List.Pairwise.nil]
      split
      next => rfl
      next => split <;> rfl
    rw [hnone]
    exact .refl t
  | cons s rest =>
    have hmasters := arbitrateFrom_moves key.unit (Sample.sorted (s :: rest)) [] sel.masters t
    have hapart : ¬ ∃ m ∈ sel.masters, m.timerKey key.unit = .ok key := by
      rintro ⟨m, hm, hk⟩
      exact h.apart m hm hk
    have hmoves : Timers.Moves (fun _ => True) t
        (arbitrateFrom key.unit (Sample.sorted (s :: rest)) [] sel.masters t).2 :=
      hmasters.mono fun _ _ => trivial
    have hsame := hmasters.find?_other hapart
    have hreliable := hmoves.reliable hr
    have hmaster {m : MasterMatch} : ∀ c ∈ [m.candidate], c.unit = key.unit → c.rule ≠ .simple r := by
      intro c hc _
      obtain rfl := List.mem_singleton.mp hc
      simp [MasterMatch.candidate, Candidate.ofSample]
    simp only [flush, seenIn, arbitrate, List.isEmpty_cons, Bool.false_eq_true, ↓reduceIte]
    generalize arbitrateFrom key.unit (Sample.sorted (s :: rest)) [] sel.masters t = out
      at hmoves hsame hreliable ⊢
    obtain ⟨result, u⟩ := out
    dsimp only at hmoves hsame hreliable ⊢
    cases result with
    | error e => exact .aside hmoves hsame unseen_none (by simp [Flush.found])
    | ok a =>
      obtain ⟨blocking, collected⟩ := a
      cases blocking with
      | some m => exact .aside hmoves hsame unseen_none hmaster
      | none =>
        cases collected with
        | cons m more =>
          simp only [latestBy, Arbitration.suppresses, List.isEmpty_cons, Bool.not_false,
            Bool.or_true, ↓reduceIte]
          exact .aside hmoves hsame unseen_none hmaster
        | nil =>
          have hjudged := @flushOrdinary_judged sel r d key (Sample.sorted (s :: rest)) u h hreliable
            fun s' hs' => hdated s' (Sample.mem_sorted.mp hs')
          have hbefore : Judged r d key t u [] [] := .aside hmoves hsame (by simp) (by simp)
          exact hbefore.trans hjudged

end OneBlock

/-! ## Block after block -/

section Blocks

variable {sel : Selector} {r : Rule} {d : Duration} {key : TimerKey}

/-- Nothing is seen where nothing is judged any more. -/
theorem Judged.behind {t u : Timers} {seen : List (Sample × Option Bool)} {found : List Candidate}
    (h : Judged r d key t u seen found) (samples : List Sample) :
    Judged r d key t u (seen ++ unseen samples) found := by
  have hbehind : Judged r d key u u (unseen samples) [] := .aside (.refl u) rfl unseen_none (by simp)
  have hall := h.trans hbehind
  rwa [List.append_nil] at hall

theorem Selector.block_judged (h : sel.Owns r d key) {t : Timers} (hr : t.Reliable) {b : Block}
    (hunit : ∀ s ∈ b.samples, s.unit = b.unit) (hdated : ∀ s ∈ b.samples, s.Dated) :
    Judged r d key t (sel.flush b.unit b.samples t).timers
      (if b.unit = key.unit then sel.seenIn r key.unit b.samples t else [])
      (sel.flush b.unit b.samples t).found := by
  by_cases hb : b.unit = key.unit
  · rw [if_pos hb, hb]
    exact flush_judged h hr hdated
  · rw [if_neg hb]
    have hmoves : Timers.Moves (·.unit ≠ key.unit) t (sel.flush b.unit b.samples t).timers :=
      flush_moves_other hunit hb
    refine .aside (hmoves.mono fun _ _ => trivial) (hmoves.find?_other (by simp)) (by simp) ?_
    intro c hc hcunit
    unfold Flush.found at hc
    split at hc
    next => cases hc
    next cs hcs => exact absurd ((unit_of_flush hunit hcs c hc).symm.trans hcunit) hb

theorem Selector.selectFrom_judged (h : sel.Owns r d key) (begun : Bool)
    (given : List (String × String)) (wanted : Option Nat) {bs : List Block} {t : Timers}
    (hr : t.Reliable) (hunit : ∀ b ∈ bs, ∀ s ∈ b.samples, s.unit = b.unit)
    (hdated : ∀ b ∈ bs, ∀ s ∈ b.samples, s.Dated) :
    Judged r d key t (sel.selectFrom begun given wanted bs t).2
      (sel.seenFrom r key.unit given wanted bs t)
      ((sel.selectFrom begun given wanted bs t).1.filterMap SelectionEvent.winner?) := by
  induction bs generalizing begun given wanted t with
  | nil => exact .refl t
  | cons b rest ih =>
    have hhere := block_judged h hr (hunit b List.mem_cons_self) (hdated b List.mem_cons_self)
    have hreads : ((readsFor begun b rest.head?).map SelectionEvent.read).filterMap
        SelectionEvent.winner? = [] := by
      rw [List.filterMap_map]
      exact List.filterMap_eq_nil_iff.mpr fun _ _ => rfl
    have hblock := (SelectionEvent.of_block b.unit (sel.flush b.unit b.samples t).asked []).2.2
    rw [List.map_nil, List.append_nil] at hblock
    unfold Flush.found at hhere
    simp only [selectFrom, seenFrom]
    cases hcs : (sel.flush b.unit b.samples t).winners with
    | error e =>
      rw [hcs] at hhere
      simp only [List.filterMap_append, hreads, hblock]
      exact hhere.behind _
    | ok cs =>
      rw [hcs] at hhere
      have hgiven : Judged r d key t (sel.flush b.unit b.samples t).timers
          (if b.unit = key.unit then sel.seenIn r key.unit b.samples t else [])
          (giveOut given wanted cs).1 := hhere.mono giveOut_subset
      have hcandidates : ((giveOut given wanted cs).1.map SelectionEvent.winner).filterMap
          SelectionEvent.winner? = (giveOut given wanted cs).1 := by
        rw [List.filterMap_map]
        exact List.filterMap_some
      dsimp only
      split
      next =>
        simp only [List.filterMap_append, hreads, hblock, hcandidates, List.nil_append]
        exact hgiven.behind _
      next =>
        simp only [List.filterMap_append, hreads, hblock, hcandidates, List.nil_append]
        refine hgiven.trans (ih _ _ _ (hhere.moves.reliable hr) ?_ ?_)
        · exact fun b' hb' => hunit b' (List.mem_cons_of_mem b hb')
        · exact fun b' hb' => hdated b' (List.mem_cons_of_mem b hb')

end Blocks

end FaultDesk
