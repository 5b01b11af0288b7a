import FaultDesk.Proofs.Config.Reread
import FaultDesk.Proofs.Rate.Evidence
import FaultDesk.Proofs.Selection.Hits
import FaultDesk.Proofs.Selection.Justified
import FaultDesk.Proofs.Source.UnitPast
import FaultDesk.Proofs.Time.Hours

/-!
Past readings are fetched for the longest window of a configuration only, and once for all samples of a
block. No rate rule misses anything by that where merging leaves the times of rows as they are: the window
of a rule does not start before that of the look-up, and its share is one of the readings in its window.
-/

namespace FaultDesk

/-! ## The longest window -/

namespace Config

variable {rules : List RateRule} {best : RateRule}

theorem widest_from (first : RateRule) (rules : List RateRule)
    (hnan : ∀ r ∈ first :: rules, r.windowHours.isNan = false) :
    let best := rules.foldl (fun best x => if best.windowHours.lt x.windowHours then x else best) first
    best ∈ first :: rules ∧ ∀ r ∈ first :: rules, r.windowHours.le best.windowHours = true := by
  induction rules generalizing first with
  | nil =>
    have hself := Double.le_self (hnan first List.mem_cons_self)
    simpa using hself
  | cons r rest ih =>
    obtain ⟨hfirst, hr, hrest⟩ : _ ∧ _ ∧ _ := by simpa only [List.forall_mem_cons] using hnan
    simp only [List.foldl_cons, List.forall_mem_cons]
    split
    next hlt =>
      obtain ⟨hmem, hall⟩ := ih r (List.forall_mem_cons.mpr ⟨hr, hrest⟩)
      obtain ⟨hle, hall⟩ := List.forall_mem_cons.mp hall
      have hfirstr := Double.le_of_lt_eq_true hlt
      exact ⟨List.mem_cons_of_mem first hmem, Double.le_of_le_of_le hfirstr hle, hle, hall⟩
    next hlt =>
      obtain ⟨hmem, hall⟩ := ih first (List.forall_mem_cons.mpr ⟨hfirst, hrest⟩)
      obtain ⟨hle, hall⟩ := List.forall_mem_cons.mp hall
      have hrfirst := Double.le_of_lt_eq_false hfirst hr (Bool.eq_false_iff.mpr hlt)
      refine ⟨?_, hle, Double.le_of_le_of_le hrfirst hle, hall⟩
      rcases List.mem_cons.mp hmem with hsame | hmem
      · rw [hsame]
        exact List.mem_cons_self
      · exact List.mem_cons_of_mem first (List.mem_cons_of_mem r hmem)

/-- No rule has a longer window than the widest. -/
theorem of_widest (h : widest rules = some best) (hnan : ∀ r ∈ rules, r.windowHours.isNan = false) :
    best ∈ rules ∧ ∀ r ∈ rules, r.windowHours.le best.windowHours = true := by
  unfold widest at h
  split at h
  next => cases h
  next first rest =>
    obtain rfl := Option.some.inj h
    exact widest_from first rest hnan

variable {c : Config} {r : RateRule} {x y : Span}

/-- The window of an active rule is not longer than the longest. -/
theorem Sound.window_le (hc : c.Sound) (hr : r ∈ c.ruleSets.rateRules)
    (hx : Span.hours r.windowHours = .ok x) (hy : Span.hours c.maxWindowHours = .ok y) : x ≤ y := by
  have hpos : ∀ q ∈ c.ruleSets.rateRules, Double.zero.lt q.windowHours = true := fun q hq =>
    (hc.rate hq).windowHours_pos
  have hnan : ∀ q ∈ c.ruleSets.rateRules, q.windowHours.isNan = false := fun q hq =>
    Double.isNan_of_le (Double.le_of_lt_eq_true (hpos q hq))
  unfold maxWindowHours at hy
  cases hwidest : widest c.ruleSets.rateRules with
  | none =>
    unfold widest at hwidest
    split at hwidest
    next hnone =>
      rw [hnone] at hr
      cases hr
    next => cases hwidest
  | some best =>
    rw [hwidest] at hy
    obtain ⟨hbest, hle⟩ := of_widest hwidest hnan
    exact Span.hours_mono (hpos r hr) (hpos best hbest) (Double.lt_eq_false_of_le (hle r hr)) hx hy

end Config

/-! ## One look-up for a block -/

/-- The first rate rule to be triggered on past readings that can be put in form. -/
theorem firstRate_of_form {s : Sample} {related past : List Sample} {h : History} {now : Instant}
    {rules : List RateRule} {t : Timers} (hform : History.ofSamples past = .ok h) :
    firstRate s related past now rules t =
      (.ok (firstRateIn s related h now rules t).1, (firstRateIn s related h now rules t).2) := by
  unfold firstRate
  split
  next => rw [hform]
  next hwatched =>
    have hnone : rules.filter (fun r => r.watches s) = [] := by
      refine List.filter_eq_nil_iff.mpr fun r hr hw => hwatched ?_
      exact List.any_eq_true.mpr ⟨r, hr, hw⟩
    rw [firstRateIn, hnone]
    rfl

namespace Selector

variable {sel : Selector} {unit : String} {h h' : History} {whole : List Sample} {t : Timers}

/-- What the simple rules hit in a sample. -/
def simpleHit (sel : Selector) (s : Sample) (related : List Sample) (t : Timers) :
    Option Candidate × Timers :=
  let (found, t) := firstMatch s related sel.simple t
  (found.map fun (_, r) => .ofSample s (.simple r) none, t)

/-- All that the ordinary rules hit where the rate rules look at the same past for every sample. -/
def hitsOn (sel : Selector) (past : List Sample) :
    List (Sample × List Sample) → Timers → Except Failure (List Candidate) × Timers
  | [], t => (.ok [], t)
  | (s, related) :: rest, t =>
    let (simple, t) := sel.simpleHit s related t
    match firstRate s related past sel.now sel.rate t with
    | (.error e, t) => (.error e, t)
    | (.ok rate, t) =>
      let (more, t) := hitsOn sel past rest t
      (more.map (simple.toList ++ rate.toList ++ ·), t)

theorem firstRateIn_of_not_asks {s : Sample} {related : List Sample} (hasks : sel.asksHistory s = false) :
    firstRateIn s related h sel.now sel.rate t = (none, t) := by
  have hnone : sel.rate.filter (fun r => r.watches s) = [] := by
    refine List.filter_eq_nil_iff.mpr fun r hr hw => ?_
    have htag : (r.tag == s.tag) = true := beq_iff_eq.mpr (Rule.watches_tag hw)
    rw [asksHistory, List.any_eq_true.mpr ⟨r, hr, htag⟩] at hasks
    cases hasks
  rw [firstRateIn, hnone]
  rfl

theorem trySimple_parts (s : Sample) (related : List Sample) (st : Search) :
    sel.trySimple s related st = ⟨(sel.simpleHit s related st.timers).2, st.history,
      st.hits ++ (sel.simpleHit s related st.timers).1.toList⟩ := by
  unfold trySimple simpleHit
  split
  next hfound => simp [hfound]
  next hfound => simp [hfound]

theorem tryRate_parts (s : Sample) (related : List Sample) (st : Search) :
    sel.tryRate s related h st =
      ⟨(firstRateIn s related h sel.now sel.rate st.timers).2, some h,
        st.hits ++ (firstRateIn s related h sel.now sel.rate st.timers).1.toList⟩ := by
  unfold tryRate
  split
  next hfound => simp [hfound]
  next hfound => simp [hfound]

/-- A state of a search that has looked up this past or none yet. -/
def Uses (h : History) (st : Search) : Prop := st.history = none ∨ st.history = some h

/-- A search judges each sample by the past of the unit, whether or not it has been looked up before. -/
theorem search_cons (hpast : sel.historyOf unit = .ok h) (s : Sample) (related : List Sample)
    (rest : List (Sample × List Sample)) {st : Search} (hst : Uses h st) :
    ∃ st', Uses h st' ∧ sel.search unit ((s, related) :: rest) st = sel.search unit rest st' ∧
      st'.timers = (sel.tryRate s related h (sel.trySimple s related st)).timers ∧
      st'.hits = (sel.tryRate s related h (sel.trySimple s related st)).hits := by
  have hsimple : Uses h (sel.trySimple s related st) := by
    rw [trySimple_parts]
    exact hst
  have hrate : Uses h (sel.tryRate s related h (sel.trySimple s related st)) := by
    rw [tryRate_parts]
    exact Or.inr rfl
  cases hasks : sel.asksHistory s with
  | false =>
    refine ⟨sel.trySimple s related st, hsimple, ?_, ?_, ?_⟩
    · simp [search, hasks]
    · rw [tryRate_parts, firstRateIn_of_not_asks hasks]
    · rw [tryRate_parts, firstRateIn_of_not_asks hasks]
      simp
  | true =>
    refine ⟨sel.tryRate s related h (sel.trySimple s related st), hrate, ?_, rfl, rfl⟩
    rcases hsimple with hnone | hsome
    · simp [search, hasks, hnone, hpast]
    · simp [search, hasks, hsome]

/-- A search with one look-up hits what every sample's own look at another past would, where the shares
are the same. -/
theorem search_eq_hitsOn (hpast : sel.historyOf unit = .ok h) (hform : History.ofSamples whole = .ok h')
    (hsame : ∀ r ∈ sel.rate, r.share h sel.now = r.share h' sel.now)
    (pairs : List (Sample × List Sample)) (st : Search) (hst : Uses h st) :
    ∃ (st' : Search) (hits : List Candidate), sel.search unit pairs st = (none, st') ∧
      st'.hits = st.hits ++ hits ∧ sel.hitsOn whole pairs st.timers = (.ok hits, st'.timers) := by
  induction pairs generalizing st with
  | nil => exact ⟨st, [], rfl, by simp, rfl⟩
  | cons p rest ih =>
    obtain ⟨s, related⟩ := p
    obtain ⟨next, hnext, hsearch, htimers, hhits⟩ := search_cons hpast s related rest hst
    obtain ⟨st', more, hrest, hmore, href⟩ := ih next hnext
    rw [trySimple_parts, tryRate_parts] at htimers hhits
    have hshares (t : Timers) : firstRate s related whole sel.now sel.rate t =
        (.ok (firstRateIn s related h sel.now sel.rate t).1,
          (firstRateIn s related h sel.now sel.rate t).2) := by
      rw [firstRate_of_form hform, firstRateIn, firstRateIn,
        rateFrom_congr fun r hr => (hsame r (List.mem_filter.mp hr).1).symm]
    refine ⟨st', (sel.simpleHit s related st.timers).1.toList ++
      (firstRateIn s related h sel.now sel.rate (sel.simpleHit s related st.timers).2).1.toList ++ more,
      hsearch.trans hrest, ?_, ?_⟩
    · rw [hmore, hhits]
      simp only [List.append_assoc]
    · rw [htimers] at href
      simp only [hitsOn, hshares, href]
      rfl

end Selector

/-! ## The whole past -/

section Fetched

variable {c : Config} {db : Readings} {fetched now : Instant} {unit : String} {part : List Sample}

/-- What is fetched for the longest window is part of the past of the unit, with all the evidence that
active rules have from then on. -/
theorem SourceReader.evidence_fetched (hc : c.Sound) (hkept : db.Kept) (hstay : db.TimesStay c.analogTags)
    (hpart : (ofConfig c).history db fetched [unit] c.maxWindowHours .unified = .ok part)
    (hle : fetched ≤ now) :
    ∃ whole, (ofConfig c).unitPast db unit = .ok whole ∧ part ⊆ whole ∧
      ∀ r ∈ c.ruleSets.rateRules, ∀ since, r.windowStart now = .ok since →
        (r.evidence since part).Perm (r.evidence since whole) := by
  obtain ⟨span, whole, hspan, hwhole, hsubset, hsame⟩ := history_filter_perm hkept hstay hpart
  refine ⟨whole, hwhole, hsubset, fun r hr since hsince => hsame _ fun p hp => ?_⟩
  obtain ⟨own, hown, rfl⟩ := RateRule.of_windowStart hsince
  have hshorter : own ≤ span := hc.window_le hr hown hspan
  have hlate : now - own ≤ p.time := of_decide_eq_true (Bool.and_eq_true_iff.mp hp).2
  calc fetched - span ≤ now - own := Int.sub_le_sub hle hshorter
    _ ≤ p.time := hlate

/-- What is fetched for the longest window is all that rate rules can use from then on. Put in form, it
gives each active rule the stats that the whole past of the unit would; and the ordinary rules hit with
it, looked up once, what they would hit if the whole past were gone through for every sample. -/
theorem longest_window_suffices {raw : Datum} (hc : Config.check raw = .ok c) (hkept : db.Kept)
    (hstay : db.TimesStay c.analogTags)
    (hpart : (SourceReader.ofConfig c).history db fetched [unit] c.maxWindowHours .unified = .ok part)
    (hle : fetched ≤ now) :
    ∃ whole h h', (SourceReader.ofConfig c).unitPast db unit = .ok whole ∧
      History.ofSamples part = .ok h ∧ History.ofSamples whole = .ok h' ∧
      (∀ r ∈ c.ruleSets.rateRules, ∀ since, r.windowStart now = .ok since →
        r.stats? h since = r.stats? h' since) ∧
      ∀ (past : String → List Sample) (samples : List Sample) (t : Timers), past unit = part →
        ∃ hits, (Selector.ofConfig c (some past) now).ordinaryHits unit samples t = .ok hits ∧
          (Selector.ofConfig c (some past) now).hitsOn whole (withRelated [] samples) t =
            (.ok hits, ((Selector.ofConfig c (some past) now).flushOrdinary unit samples t).timers) := by
  obtain ⟨whole, hwhole, hsubset, hsame⟩ :=
    SourceReader.evidence_fetched (Config.check_sound hc) hkept hstay hpart hle
  have hstored : ∀ p ∈ whole, p.value.Stored := fun p hp =>
    SourceReader.stored_of_mem_unitPast hkept hwhole hp
  have hstored' : ∀ p ∈ part, p.value.Stored := fun p hp => hstored p (hsubset hp)
  obtain ⟨h', hform'⟩ := History.ofSamples_stored hstored
  obtain ⟨h, hform⟩ := History.ofSamples_stored hstored'
  have hstats : ∀ r ∈ c.ruleSets.rateRules, ∀ since, r.windowStart now = .ok since →
      r.stats? h since = r.stats? h' since := fun r hr since hsince =>
    RateRule.stats?_congr hform hform' hstored' hstored (hsame r hr since hsince)
  refine ⟨whole, h, h', hwhole, hform, hform', hstats, ?_⟩
  intro past samples t hunit
  have hpast : (Selector.ofConfig c (some past) now).historyOf unit = .ok h := by
    show History.ofSamples (past unit) = .ok h
    rw [hunit, hform]
  obtain ⟨st', hits, hsearch, hhits, href⟩ := Selector.search_eq_hitsOn hpast hform'
    (fun r hr => RateRule.share_congr (hstats r hr)) (withRelated [] samples) ⟨t, none, []⟩ (Or.inl rfl)
  refine ⟨hits, ?_, ?_⟩
  · unfold Selector.ordinaryHits
    rw [hsearch]
    exact congrArg Except.ok hhits
  · unfold Selector.flushOrdinary
    rw [hsearch]
    exact href

end Fetched

/-! ## A unit that runs hot -/

/-- Most readings of four hours are above ten. -/
def heatRules : Datum :=
  .mapping [(.text "ruleSets", .mapping [(.text "diRules", .mapping [(.text "rules", .list
    [.mapping [(.text "kind", .text "rate"), (.text "tag", .text "Tag3"), (.text "condition", .text "gt"),
      (.text "value", .int 10), (.text "windowHours", .int 4)]])])])]

/-- A unit with some readings and none in its analog table. -/
def heatReadings (columns : List (String × ColumnType)) (rows : List Row) : Readings :=
  ⟨"north", some ⟨columns, rows, true⟩,
    some ⟨[(Row.unitColumn, .whole), (Row.timeColumn, .stamp)], [], true⟩, false⟩

theorem heatReadings_kept {columns : List (String × ColumnType)} {rows : List Row}
    (h : ReadingTable.Kept ⟨columns, rows, true⟩) : (heatReadings columns rows).Kept := by
  refine ⟨?_, ?_⟩
  · intro t ht
    rwa [← Option.some.inj ht]
  · intro t ht row hrow
    rw [← Option.some.inj ht] at hrow
    cases hrow

/-- The columns of a unit, a time and a tag. -/
def heatColumns : List (String × ColumnType) :=
  [(Row.unitColumn, .whole), (Row.timeColumn, .stamp), ("Tag3", .whole)]

def heatRow (time : Datum) (value : Int) : Row :=
  [(Row.unitColumn, .int 101), (Row.timeColumn, time), ("Tag3", .int value)]

def atMinute (n : Nat) : Datum := .stamp (.naive (n * Span.minute))

/-- The unit has been cold and runs hot at half past seven. -/
def hotNow : Readings :=
  heatReadings heatColumns
    [heatRow (atMinute 60) 5, heatRow (atMinute 210) 5, heatRow (atMinute 450) 12]

theorem hotNow_kept : hotNow.Kept := by
  refine heatReadings_kept fun row hrow => ?_
  simp only [List.mem_cons, List.not_mem_nil, or_false] at hrow
  rcases hrow with rfl | rfl | rfl
  · exact ⟨[.int 101, atMinute 60, .int 5], rfl⟩
  · exact ⟨[.int 101, atMinute 210, .int 5], rfl⟩
  · exact ⟨[.int 101, atMinute 450, .int 12], rfl⟩

/-- What is fetched at eight is one reading of three, and it is enough at nine. -/
theorem hot_by_one_reading :
    ∃ c part whole hits t, Config.check heatRules = .ok c ∧
      (SourceReader.ofConfig c).history hotNow (8 * Span.hour) ["101"] c.maxWindowHours .unified =
        .ok part ∧ (SourceReader.ofConfig c).unitPast hotNow "101" = .ok whole ∧
      part.length = 1 ∧ hotNow.joined.length = 3 ∧
      (Selector.ofConfig c (some fun _ => part) (9 * Span.hour)).ordinaryHits "101"
        [.reading "Tag3" 12 450] (.empty true) = .ok hits ∧
      (Selector.ofConfig c (some fun _ => part) (9 * Span.hour)).hitsOn whole
        (withRelated [] [.reading "Tag3" 12 450]) (.empty true) = (.ok hits, t) ∧
      hits.map (·.stats) = [some (.ofCounts 1 1)] := by
  have hread : (Config.check heatRules).toOption.map (fun c =>
      ((SourceReader.ofConfig c).history hotNow (8 * Span.hour) ["101"] c.maxWindowHours
        .unified).toOption.map fun part => (part.length,
          ((Selector.ofConfig c (some fun _ => part) (9 * Span.hour)).ordinaryHits "101"
            [.reading "Tag3" 12 450] (.empty true)).toOption.map fun hits => hits.map (·.stats))) =
      some (some (1, some [some (.ofCounts 1 1)])) := by decide +kernel
  obtain ⟨c, hc, hread⟩ := ok_of_toOption hread
  obtain ⟨part, hpart, hread⟩ := ok_of_toOption hread
  obtain ⟨hlength, hread⟩ := Prod.mk.inj hread
  obtain ⟨hits, hhits, hstats⟩ := ok_of_toOption hread
  have hstay : hotNow.TimesStay c.analogTags := by
    refine hotNow_kept.timesStay fun t ht => ?_
    obtain rfl := Option.some.inj ht
    decide
  obtain ⟨whole, h, h', hwhole, -, -, -, hsuffices⟩ :=
    longest_window_suffices hc hotNow_kept hstay hpart (by decide : 8 * Span.hour ≤ 9 * Span.hour)
  obtain ⟨found, hfound, href⟩ := hsuffices (fun _ => part) [.reading "Tag3" 12 450] (.empty true) rfl
  obtain rfl := Except.ok.inj (hfound.symm.trans hhits)
  exact ⟨c, part, whole, found, _, hc, hpart, hwhole, hlength, by decide, hfound, href, hstats⟩

/-- A reading without a time of its own, with one of half past seven in an analog column for it. -/
def untimedReading : Readings :=
  heatReadings (heatColumns ++ [(Row.analogMark ++ Row.timeColumn, .stamp)])
    [heatRow .null 12 ++ [(Row.analogMark ++ Row.timeColumn, atMinute 450)]]

theorem untimedReading_kept : untimedReading.Kept := by
  refine heatReadings_kept fun row hrow => ?_
  rw [List.mem_singleton.mp hrow]
  exact ⟨[.int 101, .null, .int 12, atMinute 450], rfl⟩

theorem ok_of_bind_toOption {α β ε : Type} {x : Except ε α} {f : α → Option β} {b : β}
    (h : x.toOption.bind f = some b) : ∃ a, x = .ok a ∧ f a = some b := by
  cases x with
  | error e => cases h
  | ok a => exact ⟨a, rfl, h⟩

/-- A row that has its time from merging is not fetched. By the whole past one reading of one satisfies
the rule, and by what is fetched there is none. -/
theorem untimed_reading_missed :
    ∃ c part whole h h' r since, Config.check heatRules = .ok c ∧ untimedReading.Kept ∧
      (SourceReader.ofConfig c).history untimedReading (8 * Span.hour) ["101"] c.maxWindowHours .unified =
        .ok part ∧
      (SourceReader.ofConfig c).unitPast untimedReading "101" = .ok whole ∧
      History.ofSamples part = .ok h ∧ History.ofSamples whole = .ok h' ∧
      r ∈ c.ruleSets.rateRules ∧ r.windowStart (8 * Span.hour) = .ok since ∧
      r.stats? h since = .ok none ∧ r.stats? h' since = .ok (some (.ofCounts 1 1)) := by
  have hread : ((Config.check heatRules).toOption.bind fun c =>
      ((SourceReader.ofConfig c).history untimedReading (8 * Span.hour) ["101"] c.maxWindowHours
        .unified).toOption.bind fun part =>
      ((SourceReader.ofConfig c).unitPast untimedReading "101").toOption.bind fun whole =>
      (History.ofSamples part).toOption.bind fun h => (History.ofSamples whole).toOption.bind fun h' =>
      c.ruleSets.rateRules.head?.bind fun r => (r.windowStart (8 * Span.hour)).toOption.bind fun since =>
      (r.stats? h since).toOption.bind fun fetched => (r.stats? h' since).toOption.map fun wholly =>
        (fetched, wholly)) = some (none, some (.ofCounts 1 1)) := by decide +kernel
  obtain ⟨c, hc, hread⟩ := ok_of_bind_toOption hread
  obtain ⟨part, hpart, hread⟩ := ok_of_bind_toOption hread
  obtain ⟨whole, hwhole, hread⟩ := ok_of_bind_toOption hread
  obtain ⟨h, hform, hread⟩ := ok_of_bind_toOption hread
  obtain ⟨h', hform', hread⟩ := ok_of_bind_toOption hread
  obtain ⟨r, hr, hread⟩ := Option.bind_eq_some_iff.mp hread
  obtain ⟨since, hsince, hread⟩ := ok_of_bind_toOption hread
  obtain ⟨fetched, hfetched, hread⟩ := ok_of_bind_toOption hread
  obtain ⟨wholly, hwholly, hread⟩ := ok_of_toOption hread
  obtain ⟨rfl, rfl⟩ := Prod.mk.inj hread
  exact ⟨c, part, whole, h, h', r, since, hc, untimedReading_kept, hpart, hwhole, hform, hform',
    List.mem_of_mem_head? hr, hsince, hfetched, hwholly⟩

end FaultDesk
