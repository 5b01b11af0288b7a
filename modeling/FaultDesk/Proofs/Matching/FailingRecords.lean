import FaultDesk.Proofs.Matching.SoleRule

/-!
A gated rule on records that may fail at any access, beside the same rule on records that never fail.
A get or a put that fails can only make a timer start later. A delete that fails leaves the record of
a condition that has been false, and later samples are judged by it.
-/

namespace FaultDesk

/-! ## One access after another may fail -/

namespace Timers

variable {t u : Timers} {key : TimerKey} {at_ : Stamp} {since : Option Stamp} {d : Duration}

/-- The same records, which do not fail from now on. -/
def mended (t : Timers) : Timers := { t with present := true, outage := fun _ _ => false }

theorem mended_reliable (t : Timers) : t.mended.Reliable := ⟨rfl, fun _ _ => rfl⟩

theorem get_ok {found : Option Stamp} (h : t.get key = (.ok found, u)) :
    found = (t.find? key).map t.recalled ∧ u = t.noted .get key := by
  have hsnd := t.get_snd key
  rw [h] at hsnd
  refine ⟨?_, hsnd⟩
  have haccess := t.access_snd .get key
  unfold get at h
  split at h
  next => cases h
  next heq =>
    rw [heq] at haccess
    cases h
    obtain rfl : u = t.noted .get key := haccess
    rfl

/-- A record is still there only after a delete that has failed. -/
theorem find?_clear (t : Timers) (key : TimerKey) :
    (t.clear key).find? key = t.find? key ∧ (t.delete key).1 ≠ .ok () ∨
      (t.clear key).find? key = none := by
  have haccess := t.access_snd .delete key
  unfold clear delete
  split
  next heq =>
    rw [heq] at haccess
    obtain rfl : _ = t.noted .delete key := haccess
    exact Or.inl ⟨rfl, by simp⟩
  next heq =>
    rw [heq] at haccess
    obtain rfl : _ = t.noted .delete key := haccess
    right
    exact (t.find?_dropped key key).trans (if_pos rfl)

/-- A timer that has been observed was running and goes on, or has been started. -/
theorem observe_ok {start : Stamp} (h : t.observe key at_ = (.ok start, u)) :
    (∃ x, t.find? key = some x ∧ start = t.recalled x) ∨
      t.find? key = none ∧ ∃ i, at_.instant? = some i ∧ start = .utc i := by
  unfold observe at h
  split at h
  next => cases h
  next found v hget =>
    left
    obtain ⟨hfound, -⟩ := get_ok hget
    obtain ⟨x, hx, hrecalled⟩ := Option.map_eq_some_iff.mp hfound.symm
    cases h
    exact ⟨x, hx, hrecalled.symm⟩
  next v hget =>
    right
    obtain ⟨hfound, -⟩ := get_ok hget
    refine ⟨Option.map_eq_none_iff.mp hfound.symm, ?_⟩
    split at h
    next => cases h
    next i hi =>
      split at h
      next => cases h
      next =>
        cases h
        exact ⟨i, hi, rfl⟩

/-- A condition has held long enough since its record says so, or since it need not have held. -/
theorem sustained_ok_true (hd : d.isInstant = false)
    (h : t.sustained key (some d) at_ since = (.ok true, u)) :
    (∃ x, t.find? key = some x ∧ lasted d (t.recalled x) at_ = .ok true) ∨
      t.find? key = none ∧ ∃ i, (since.getD at_).instant? = some i ∧
        lasted d (.utc i) at_ = .ok true := by
  unfold sustained at h
  simp only [hd, Bool.false_eq_true, ↓reduceIte] at h
  split at h
  next => cases h
  next start v hobserve =>
    have hlasted : lasted d start at_ = .ok true := (Prod.mk.inj h).1
    rcases observe_ok hobserve with ⟨x, hx, rfl⟩ | ⟨hnone, i, hi, rfl⟩
    · exact Or.inl ⟨x, hx, hlasted⟩
    · exact Or.inr ⟨hnone, i, hi, hlasted⟩

/-- Observing a timer leaves its record, or puts one where there is none. -/
theorem find?_observe (t : Timers) (key : TimerKey) (at_ : Stamp) :
    (t.observe key at_).2.find? key = t.find? key ∨
      t.find? key = none ∧ ∃ i, at_.instant? = some i ∧
        (t.observe key at_).2.find? key = some (t.kept (.utc i)) := by
  unfold observe
  rcases hget : t.get key with ⟨found, v⟩
  have hv : v = t.noted .get key := by rw [← t.get_snd key, hget]
  cases found with
  | error e => exact Or.inl (by rw [hv]; rfl)
  | ok found =>
    cases found with
    | some s => exact Or.inl (by rw [hv]; rfl)
    | none =>
      dsimp only
      cases hi : at_.instant? with
      | none => exact Or.inl (by rw [hv]; rfl)
      | some i =>
        have hnone : t.find? key = none := Option.map_eq_none_iff.mp (get_ok hget).1.symm
        have hput := v.put_snd key (.utc i)
        rcases hresult : v.put key (.utc i) with ⟨done, w⟩
        rw [hresult, hv] at hput
        have hrecord : w.find? key = t.find? key ∨ w.find? key = some (t.kept (.utc i)) := by
          rcases hput with hnoted | hwritten
          · obtain rfl : w = _ := hnoted
            exact Or.inl rfl
          · obtain rfl : w = _ := hwritten
            rw [find?_written, if_pos rfl]
            exact Or.inr rfl
        dsimp only
        rw [hresult]
        cases done <;> exact hrecord.imp_right fun h => ⟨hnone, i, rfl, h⟩

/-- So does asking a timer, and what is put is the time from which the question counts. -/
theorem find?_sustained (t : Timers) (key : TimerKey) (d : Option Duration) (at_ : Stamp)
    (since : Option Stamp) :
    (t.sustained key d at_ since).2.find? key = t.find? key ∨
      t.find? key = none ∧ ∃ i, (since.getD at_).instant? = some i ∧
        (t.sustained key d at_ since).2.find? key = some (t.kept (.utc i)) := by
  have hobserve := t.find?_observe key (since.getD at_)
  unfold sustained
  split
  next => exact Or.inl rfl
  next d =>
    split
    next => exact Or.inl rfl
    next =>
      split
      next he => rwa [he] at hobserve
      next he => rwa [he] at hobserve

end Timers

/-! ## One sample on records that may fail -/

section Verdict

variable {r : Rule} {unit : String} {s : Sample} {related : List Sample} {t : Timers} {key : TimerKey}

/-- A sample makes of a record what it makes of it when nothing fails, or leaves it alone. -/
theorem Rule.find?_verdict_failing (hg : r.gated = true) (hk : r.timerKey unit = .ok key)
    (hsees : r.sees unit s = true) :
    (r.verdict s related t).2.find? key = t.find? key ∨
      (r.verdict s related t).2.find? key =
        tick (fun i => t.kept (.utc i)) (t.find? key) (s, r.sight unit (s, related)) := by
  obtain ⟨d, hd, hinstant⟩ := Rule.gated_iff.mp hg
  cases h : r.sight unit (s, related) with
  | none => exact Or.inl (by rw [(Rule.verdict_unseen hsees h).1])
  | some b =>
    cases b with
    | false =>
      rw [Rule.verdict_seen_false hg hk h]
      rcases t.clear_eq key with hnoted | hdropped
      · exact Or.inl (by rw [hnoted]; rfl)
      · exact Or.inr (by rw [hdropped, Timers.find?_dropped, if_pos rfl, tick])
    | true =>
      rw [Rule.verdict_seen_true hg hk h, hd]
      rcases t.find?_sustained key (some d) (.utc s.time) none with hsame | ⟨hnone, i, hi, hstarted⟩
      · exact Or.inl hsame
      · obtain rfl := Stamp.eq_of_instant?_utc hi
        exact Or.inr (by rw [hstarted, hnone]; rfl)

/-- A match means that the condition is seen true, and that it has been long enough by its record or
need not have been. -/
theorem Rule.of_verdict_true_failing {d : Duration} (hd : r.duration = some d)
    (hinstant : d.isInstant = false) (hsees : r.sees unit s = true)
    (h : (r.verdict s related t).1 = .ok true) :
    r.sight unit (s, related) = some true ∧ ∃ key, r.timerKey unit = .ok key ∧
      ((∃ x, t.find? key = some x ∧ Timers.lasted d (t.recalled x) (.utc s.time) = .ok true) ∨
        t.find? key = none ∧ Timers.lasted d (.utc s.time) (.utc s.time) = .ok true) := by
  have hg : r.gated = true := Rule.gated_iff.mpr ⟨d, hd, hinstant⟩
  have hpair : r.verdict s related t = (.ok true, (r.verdict s related t).2) := Prod.ext h rfl
  obtain ⟨hpre, heval, key, hk, hsustained⟩ := Rule.of_verdict_true hg hpair
  rw [(Rule.sees_iff.mp hsees).1] at hk
  refine ⟨Rule.sight_eq_some_iff.mpr ⟨hsees, hpre, heval⟩, key, hk, ?_⟩
  rw [hd] at hsustained
  rcases Timers.sustained_ok_true hinstant hsustained with hrunning | ⟨hnone, i, hi, hlasted⟩
  · exact Or.inl hrunning
  · obtain rfl := Stamp.eq_of_instant?_utc hi
    exact Or.inr ⟨hnone, hlasted⟩

theorem find?_firstMatch_failing (hg : r.gated = true) (hk : r.timerKey unit = .ok key) :
    (firstMatch s related [r] t).2.find? key = t.find? key ∨
      (firstMatch s related [r] t).2.find? key =
        tick (fun i => t.kept (.utc i)) (t.find? key) (s, r.sight unit (s, related)) := by
  have hsole : ∀ q ∈ ([] : List Rule) ++ [], q.tag ≠ r.tag := by simp
  cases hsees : r.sees unit s with
  | false => exact Or.inl (firstMatch_sole_other hsole hk hsees)
  | true =>
    rw [show [r] = [] ++ r :: [] from rfl, (firstMatch_sole hsole (Rule.sees_iff.mp hsees).2).1]
    exact Rule.find?_verdict_failing hg hk hsees

end Verdict

/-! ## One sample after another -/

section Runs

variable {r : Rule} {unit : String} {key : TimerKey} {calls : List (Sample × List Sample)}
  {t : Timers} {n : Nat}

/-- The record of a key when so many samples have been passed to a rule. -/
def startAfter (r : Rule) (key : TimerKey) (calls : List (Sample × List Sample)) (t : Timers)
    (n : Nat) : Option Stamp :=
  (recordsAfter [r] calls t n).find? key

/-- At the sample in a place, of that time, the condition is seen true. -/
def SeenTrue (r : Rule) (unit : String) (calls : List (Sample × List Sample)) (k : Nat) (i : Instant) :
    Prop :=
  ∃ c, calls[k]? = some c ∧ r.sight unit c = some true ∧ c.1.time = i

/-- A record has outlived a sample at which the condition was seen false, since its delete failed
there, and is still there when so many samples have been passed to the rule. -/
def Outlived (r : Rule) (unit : String) (key : TimerKey) (calls : List (Sample × List Sample))
    (t : Timers) (n : Nat) : Prop :=
  ∃ k c x, k < n ∧ calls[k]? = some c ∧ r.sight unit c = some false ∧
    ((recordsAfter [r] calls t k).delete key).1 ≠ .ok () ∧
    ∀ m, k ≤ m → m ≤ n → startAfter r key calls t m = some x

/-- A timer that would run since some sample has not been started, or has been by a later one. -/
def Delayed (r : Rule) (unit : String) (key : TimerKey) (calls : List (Sample × List Sample))
    (t : Timers) (n : Nat) : Prop :=
  ∃ k i, k < n ∧ SeenTrue r unit calls k i ∧
    startAfter r key calls t.mended n = some (t.kept (.utc i)) ∧
    (startAfter r key calls t n = none ∨
      ∃ m j, k < m ∧ m < n ∧ SeenTrue r unit calls m j ∧
        startAfter r key calls t n = some (t.kept (.utc j)))

/-- A record is as it is when nothing fails, or has been started late, or has outlived a sample at
which the condition was seen false. -/
def Accounted (r : Rule) (unit : String) (key : TimerKey) (calls : List (Sample × List Sample))
    (t : Timers) (n : Nat) : Prop :=
  startAfter r key calls t n = startAfter r key calls t.mended n ∨
    Delayed r unit key calls t n ∨ Outlived r unit key calls t n

theorem Outlived.succ (h : Outlived r unit key calls t n)
    (hsame : startAfter r key calls t (n + 1) = startAfter r key calls t n) :
    Outlived r unit key calls t (n + 1) := by
  obtain ⟨k, c, x, hk, hc, hfalse, hfails, hkept⟩ := h
  refine ⟨k, c, x, by omega, hc, hfalse, hfails, fun m hkm hm => ?_⟩
  rcases Nat.lt_or_ge n m with hlt | hge
  · obtain rfl : m = n + 1 := by omega
    rw [hsame]
    exact hkept n (by omega) (Nat.le_refl n)
  · exact hkept m hkm hge

theorem Delayed.succ (h : Delayed r unit key calls t n)
    (hsame : startAfter r key calls t (n + 1) = startAfter r key calls t n ∨
      ∃ i, SeenTrue r unit calls n i ∧ startAfter r key calls t (n + 1) = some (t.kept (.utc i)))
    (hmended : startAfter r key calls t.mended (n + 1) = startAfter r key calls t.mended n) :
    Delayed r unit key calls t (n + 1) := by
  obtain ⟨k, i, hk, hseen, hstart, hlate⟩ := h
  refine ⟨k, i, by omega, hseen, hmended.trans hstart, ?_⟩
  rcases hsame with hsame | ⟨j, hseen', hstarted⟩
  · rw [hsame]
    refine hlate.imp_right ?_
    rintro ⟨m, j, hkm, hm, hrest⟩
    exact ⟨m, j, hkm, by omega, hrest⟩
  · exact Or.inr ⟨n, j, hk, by omega, hseen', hstarted⟩

/-- A sample judged by a record that has been delayed is judged by a later start. -/
theorem Delayed.judged_later {d : Duration} {at_ : Instant} (h : Delayed r unit key calls t n)
    (hseen : SeenTrue r unit calls n at_)
    (hjudged : (∃ x, startAfter r key calls t n = some x ∧
        Timers.lasted d (t.recalled x) (.utc at_) = .ok true) ∨
      startAfter r key calls t n = none ∧ Timers.lasted d (.utc at_) (.utc at_) = .ok true) :
    ∃ k m i j, k < m ∧ m ≤ n ∧ SeenTrue r unit calls k i ∧ SeenTrue r unit calls m j ∧
      startAfter r key calls t.mended n = some (t.kept (.utc i)) ∧
      Timers.lasted d (.utc j) (.utc at_) = .ok true := by
  obtain ⟨k, i, hkn, hseenk, hstart, hlate⟩ := h
  rcases hjudged with ⟨x, hx, hlasted⟩ | ⟨-, hlasted⟩
  · rcases hlate with hnone | ⟨m, j, hkm, hmn, hseenm, hstartm⟩
    · rw [hx] at hnone
      cases hnone
    · rw [hx] at hstartm
      obtain rfl := Option.some.inj hstartm
      rw [Timers.recalled_kept_utc] at hlasted
      exact ⟨k, m, i, j, hkm, Nat.le_of_lt hmn, hseenk, hseenm, hstart, hlasted⟩
  · exact ⟨k, n, i, at_, hkn, Nat.le_refl n, hseenk, hseen, hstart, hlasted⟩

theorem Accounted.unseen (h : Accounted r unit key calls t n)
    (hsame : startAfter r key calls t (n + 1) = startAfter r key calls t n)
    (hmended : startAfter r key calls t.mended (n + 1) = startAfter r key calls t.mended n) :
    Accounted r unit key calls t (n + 1) := by
  rcases h with heq | hdelayed | houtlived
  · exact Or.inl (by rw [hsame, hmended, heq])
  · exact Or.inr (Or.inl (hdelayed.succ (Or.inl hsame) hmended))
  · exact Or.inr (Or.inr (houtlived.succ hsame))

/-- Where nothing fails the record is gone. -/
theorem accounted_seen_false {c : Sample × List Sample} (hc : calls[n]? = some c)
    (hsight : r.sight unit c = some false)
    (hstep : startAfter r key calls t (n + 1) = startAfter r key calls t n ∧
        ((recordsAfter [r] calls t n).delete key).1 ≠ .ok () ∨
      startAfter r key calls t (n + 1) = none)
    (hmended : startAfter r key calls t.mended (n + 1) = none) :
    Accounted r unit key calls t (n + 1) := by
  cases hnext : startAfter r key calls t (n + 1) with
  | none => exact Or.inl (hnext.trans hmended.symm)
  | some x =>
    rw [hnext] at hstep
    obtain ⟨hsame, hfails⟩ := hstep.resolve_right (by simp)
    refine Or.inr (Or.inr ⟨n, c, x, by omega, hc, hsight, hfails, fun m hm hm' => ?_⟩)
    rcases Nat.lt_or_ge n m with hlt | hge
    · obtain rfl : m = n + 1 := by omega
      exact hnext
    · obtain rfl : m = n := by omega
      exact hsame.symm

/-- Where nothing fails the timer has been started, unless it was running. -/
theorem Accounted.seen_true (h : Accounted r unit key calls t n) {i : Instant}
    (hseen : SeenTrue r unit calls n i)
    (hstep : startAfter r key calls t (n + 1) = startAfter r key calls t n ∨
      startAfter r key calls t (n + 1) =
        some ((startAfter r key calls t n).getD (t.kept (.utc i))))
    (hmended : startAfter r key calls t.mended (n + 1) =
      some ((startAfter r key calls t.mended n).getD (t.kept (.utc i)))) :
    Accounted r unit key calls t (n + 1) := by
  have hruns {x : Stamp} (hx : startAfter r key calls t n = some x) :
      startAfter r key calls t (n + 1) = startAfter r key calls t n := by
    rcases hstep with hsame | hticked
    · exact hsame
    · rw [hticked, hx]
      rfl
  rcases h with heq | hdelayed | houtlived
  · cases hrecord : startAfter r key calls t n with
    | some x =>
      rw [← heq, hrecord] at hmended
      exact Or.inl ((hruns hrecord).trans (hrecord.trans hmended.symm))
    | none =>
      rw [← heq, hrecord] at hmended
      rw [hrecord] at hstep
      rcases hstep with hnone | hstarted
      · exact Or.inr (Or.inl ⟨n, i, by omega, hseen, hmended, Or.inl hnone⟩)
      · exact Or.inl (hstarted.trans hmended.symm)
  · have hgoesOn : startAfter r key calls t.mended (n + 1) = startAfter r key calls t.mended n := by
      obtain ⟨k, j, -, -, hstart, -⟩ := hdelayed
      rw [hmended, hstart]
      rfl
    refine Or.inr (Or.inl (hdelayed.succ ?_ hgoesOn))
    cases hrecord : startAfter r key calls t n with
    | some x => exact Or.inl ((hruns hrecord).trans hrecord)
    | none =>
      rw [hrecord] at hstep
      exact hstep.imp_right fun hstarted => ⟨i, hseen, hstarted⟩
  · have hrecord : ∃ x, startAfter r key calls t n = some x := by
      obtain ⟨k, c, x, hk, -, -, -, hkept⟩ := houtlived
      exact ⟨x, hkept n (Nat.le_of_lt hk) (Nat.le_refl n)⟩
    obtain ⟨x, hx⟩ := hrecord
    exact Or.inr (Or.inr (houtlived.succ (hruns hx)))

theorem startAfter_succ (hg : r.gated = true) (hk : r.timerKey unit = .ok key)
    {c : Sample × List Sample} (hc : calls[n]? = some c) :
    startAfter r key calls t (n + 1) = startAfter r key calls t n ∨
      startAfter r key calls t (n + 1) =
        tick (fun i => t.kept (.utc i)) (startAfter r key calls t n) (c.1, r.sight unit c) := by
  have h := @find?_firstMatch_failing r unit c.1 c.2 (recordsAfter [r] calls t n) key hg hk
  simp only [recordsAfter_kept] at h
  unfold startAfter
  rwa [recordsAfter_succ hc]

theorem startAfter_seen_false (hg : r.gated = true) (hk : r.timerKey unit = .ok key)
    {c : Sample × List Sample} (hc : calls[n]? = some c) (hsight : r.sight unit c = some false) :
    startAfter r key calls t (n + 1) = startAfter r key calls t n ∧
        ((recordsAfter [r] calls t n).delete key).1 ≠ .ok () ∨
      startAfter r key calls t (n + 1) = none := by
  obtain ⟨s, related⟩ := c
  have hwatched := (Rule.sees_iff.mp (Rule.sight_eq_some_iff.mp hsight).1).2
  have hstep : recordsAfter [r] calls t (n + 1) = (recordsAfter [r] calls t n).clear key := by
    rw [recordsAfter_succ hc, show [r] = [] ++ r :: [] from rfl,
      (firstMatch_sole (by simp) hwatched).1, Rule.verdict_seen_false hg hk hsight]
  unfold startAfter
  rw [hstep]
  exact (recordsAfter [r] calls t n).find?_clear key

theorem startAfter_mended_succ (hg : r.gated = true) (hk : r.timerKey unit = .ok key)
    {c : Sample × List Sample} (hc : calls[n]? = some c) (hdate : c.1.Dated) :
    startAfter r key calls t.mended (n + 1) =
      tick (fun i => t.kept (.utc i)) (startAfter r key calls t.mended n) (c.1, r.sight unit c) := by
  have h := @find?_firstMatch_sight [] [] r c.1 c.2 (recordsAfter [r] calls t.mended n) unit key
    (by simp) (recordsAfter_reliable t.mended_reliable n) hg hk hdate
  simp only [recordsAfter_kept] at h
  unfold startAfter
  rw [recordsAfter_succ hc]
  exact h

theorem accounted (hg : r.gated = true) (hk : r.timerKey unit = .ok key)
    (hdated : ∀ c ∈ calls, c.1.Dated) (hn : n ≤ calls.length) :
    Accounted r unit key calls t n := by
  induction n with
  | zero => exact Or.inl rfl
  | succ n ih =>
    have hlt : n < calls.length := hn
    have hc := List.getElem?_eq_getElem hlt
    have hstep := @startAfter_succ r unit key calls t n hg hk _ hc
    have hmended := @startAfter_mended_succ r unit key calls t n hg hk _ hc
      (hdated _ (List.getElem_mem hlt))
    have hbefore := ih (Nat.le_of_lt hlt)
    cases hsight : r.sight unit calls[n] with
    | none =>
      rw [hsight] at hstep hmended
      exact hbefore.unseen (hstep.elim id id) hmended
    | some seen =>
      rw [hsight] at hstep hmended
      cases seen with
      | false => exact accounted_seen_false hc hsight (startAfter_seen_false hg hk hc hsight) hmended
      | true => exact hbefore.seen_true ⟨calls[n], hc, hsight, rfl⟩ hstep hmended

end Runs

/-- A sample at which a gated rule matches on records that may fail is one at which it matches on
records that never fail, unless the record it is judged by has outlived a sample at which the condition
was seen false, or the times of the samples go back. -/
theorem match_on_failing_records {r : Rule} {d : Duration} {calls : List (Sample × List Sample)}
    {t : Timers} {n : Nat} (hd : r.duration = some d) (hinstant : d.isInstant = false)
    (hdated : ∀ c ∈ calls, c.1.Dated) (hn : n < calls.length)
    (hm : (firstMatch calls[n].1 calls[n].2 [r] (recordsAfter [r] calls t n)).1 = some (0, r)) :
    (firstMatch calls[n].1 calls[n].2 [r] (recordsAfter [r] calls t.mended n)).1 = some (0, r) ∨
      (∃ key, r.timerKey calls[n].1.unit = .ok key ∧ Outlived r calls[n].1.unit key calls t n) ∨
      ∃ k m i j, k < m ∧ m ≤ n ∧ SeenTrue r calls[n].1.unit calls k i ∧
        SeenTrue r calls[n].1.unit calls m j ∧ j < i := by
  have hsole : ∀ q ∈ ([] : List Rule) ++ [], q.tag ≠ r.tag := by simp
  have hw : r.watches calls[n].1 = true := (firstMatch_some hm).2.1
  have hsees : r.sees calls[n].1.unit calls[n].1 = true := Rule.sees_iff.mpr ⟨rfl, hw⟩
  have hdate : calls[n].1.Dated := hdated _ (List.getElem_mem hn)
  have hg : r.gated = true := Rule.gated_iff.mpr ⟨d, hd, hinstant⟩
  obtain ⟨hsight, key, hk, hjudged⟩ :=
    Rule.of_verdict_true_failing hd hinstant hsees ((firstMatch_sole hsole hw).2.mp hm)
  have hseen : SeenTrue r calls[n].1.unit calls n calls[n].1.time :=
    ⟨calls[n], List.getElem?_eq_getElem hn, hsight, rfl⟩
  have hmatches {start : Stamp}
      (hstart : (startAfter r key calls t.mended n).elim (.utc calls[n].1.time) t.recalled = start)
      (hlasted : Timers.lasted d start (.utc calls[n].1.time) = .ok true) :
      (firstMatch calls[n].1 calls[n].2 [r] (recordsAfter [r] calls t.mended n)).1 = some (0, r) := by
    have hrecalled : (recordsAfter [r] calls t.mended n).recalled = t.recalled :=
      funext fun x => recordsAfter_recalled [r] calls t.mended n x
    refine (firstMatch_sole hsole hw).2.mpr ?_
    rw [Rule.verdict_true_sight_iff (recordsAfter_reliable t.mended_reliable n) hd hinstant hk hsees
      hdate, hrecalled]
    exact ⟨hsight, (congrArg (Timers.lasted d · _) hstart).trans hlasted⟩
  simp only [recordsAfter_recalled] at hjudged
  -- a timer that has been started late has lasted longer where nothing fails, unless times go back
  rcases accounted (n := n) (t := t) hg hk hdated (Nat.le_of_lt hn) with heq | hdelayed | houtlived
  · left
    rcases hjudged with ⟨x, hx, hlasted⟩ | ⟨hnone, hlasted⟩
    · exact hmatches (by rw [← heq, startAfter, hx]; rfl) hlasted
    · exact hmatches (by rw [← heq, startAfter, hnone]; rfl) hlasted
  · obtain ⟨k, m, i, j, hkm, hmn, hseenk, hseenm, hstart, hlasted⟩ :=
      hdelayed.judged_later hseen hjudged
    rcases Int.lt_or_le j i with hback | hforth
    · exact Or.inr (Or.inr ⟨k, m, i, j, hkm, hmn, hseenk, hseenm, hback⟩)
    · have hrunning : (startAfter r key calls t.mended n).elim (.utc calls[n].1.time) t.recalled =
          .utc i := by
        rw [hstart]
        exact t.recalled_kept_utc i
      obtain ⟨w, hw, hle⟩ := (Timers.lasted_utc_iff hdate).mp hlasted
      have hlonger : w ≤ calls[n].1.time - i := Int.le_trans hle (Int.sub_le_sub_left hforth _)
      exact Or.inl (hmatches hrunning ((Timers.lasted_utc_iff hdate).mpr ⟨w, hw, hlonger⟩))
  · exact Or.inr (Or.inl ⟨key, hk, houtlived⟩)

/-- Records in memory that fail once, when so many accesses have been made. -/
def Timers.failsAt (n : Nat) : Timers := { Timers.empty false with outage := fun k _ => k == n }

/-- The timer is put at the second reading only, and the third matches as it does where nothing
fails. -/
theorem match_after_failed_put :
    (firstMatch (.reading "Tag1" 1 15) [] [.reads "Tag1" 1 10]
        (recordsAfter [.reads "Tag1" 1 10]
          [(.reading "Tag1" 1 0, []), (.reading "Tag1" 1 5, []), (.reading "Tag1" 1 15, [])]
          (Timers.failsAt 1).mended 2)).1 = some (0, .reads "Tag1" 1 10) := by
  let calls : List (Sample × List Sample) :=
    [(.reading "Tag1" 1 0, []), (.reading "Tag1" 1 5, []), (.reading "Tag1" 1 15, [])]
  have hsight : ∀ c ∈ calls, (Rule.reads "Tag1" 1 10).sight "101" c = some true := by
    decide +kernel
  have hordered : calls.Pairwise fun c c' => c.1.time ≤ c'.1.time := by decide +kernel
  rcases @match_on_failing_records (.reads "Tag1" 1 10) _ calls (.failsAt 1) 2 rfl
      (by decide +kernel) (by decide +kernel) (by decide) (by decide +kernel)
    with hmatches | ⟨key, -, k, c, x, -, hc, hfalse, -⟩ |
      ⟨k, m, i, j, hkm, -, ⟨c, hc, -, rfl⟩, ⟨c', hc', -, rfl⟩, hback⟩
  · exact hmatches
  · have hseen : (Rule.reads "Tag1" 1 10).sight "101" c = some false := hfalse
    rw [hsight c (List.mem_of_getElem? hc)] at hseen
    cases hseen
  · obtain ⟨hk, rfl⟩ := List.getElem?_eq_some_iff.mp hc
    obtain ⟨hm, rfl⟩ := List.getElem?_eq_some_iff.mp hc'
    exact absurd (List.pairwise_iff_getElem.mp hordered k m hk hm hkm) (Int.not_le.mpr hback)

/-- A reading at which the condition is false and the delete fails leaves a timer that has run for
ten minutes at the next reading. -/
theorem failed_delete_causes_match :
    (firstMatch (.reading "Tag1" 1 10) [] [.reads "Tag1" 1 10]
        (recordsAfter [.reads "Tag1" 1 10] [(.reading "Tag1" 1 0, []), (.reading "Tag1" 0 5, [])]
          (.failsAt 2) 2)).1 = some (0, .reads "Tag1" 1 10) ∧
      (firstMatch (.reading "Tag1" 1 10) [] [.reads "Tag1" 1 10]
        (recordsAfter [.reads "Tag1" 1 10] [(.reading "Tag1" 1 0, []), (.reading "Tag1" 0 5, [])]
          (Timers.failsAt 2).mended 2)).1 = none := by
  constructor <;> decide +kernel

end FaultDesk
