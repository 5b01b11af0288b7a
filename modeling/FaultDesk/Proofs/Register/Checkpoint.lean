import FaultDesk.Checkpoint
import FaultDesk.Proofs.Time.IsoText

/-!
Checkpoints that are written and read. What is written is an instant of the calendar, not later than
the clock, and as such it is read again as long as the clock does not go back. The key has one row then,
and all other rows are as they were.
-/

namespace FaultDesk

/-- A stamp of the calendar shows an instant of the calendar, if any. -/
theorem Stamp.instant?_bounds {s : Stamp} {t : Instant} (hpast : 0 ≤ s.wall)
    (hlimit : s.wall < Instant.limit) (h : s.instant? = some t) : 0 ≤ t ∧ t < Instant.limit := by
  unfold instant? at h
  split at h
  next =>
    obtain rfl := Option.some.inj h
    exact ⟨hpast, hlimit⟩
  next =>
    obtain ⟨rfl, hbounds⟩ := Instant.check?_eq_some h
    exact hbounds

namespace Checkpoint

variable {r : Register} {key : String} {t now : Instant}

/-- The value that a setting has. -/
def valueOf (r : Register) (key : String) : Option String := (r.setting? key).bind (·.value)

theorem withOffset_of_not_mem {s : String} (h : 'Z' ∉ s.toList) : withOffset s = s := by
  have hsame : s.toList.flatMap (fun c => if c = 'Z' then "+00:00".toList else [c]) =
      s.toList.flatMap fun c => [c] := by
    refine List.flatMap_congr ?_
    intro c hc
    have hz : c ≠ 'Z' := by
      rintro rfl
      exact h hc
    exact if_neg hz
  rw [withOffset, hsame]
  simp

/-- The written text of an instant holds that instant. -/
theorem stored?_text (hpast : 0 ≤ t) (hlimit : t < Instant.limit) :
    stored? (some (Stamp.utc t).text) = some (Stamp.utc t) := by
  have hread := Stamp.read?_text_utc hpast hlimit
  have hne : (Stamp.utc t).text ≠ "" := by
    simp [Stamp.text, Stamp.textWith, ← String.toList_inj]
  simp [stored?, hne, withOffset_of_not_mem (Stamp.zulu_not_mem_text_utc t), hread]

theorem valueOf_written (settings : List SettingRow) (key value : String) :
    ((written settings key value).find? (·.key == key)).bind (·.value) = some value := by
  induction settings with
  | nil => simp [written]
  | cons s rest ih =>
    by_cases hs : s.key = key
    · simp [written, hs]
    · simpa [written, hs] using ih

/-- Where the settings can be reached the checkpoint becomes the instant, or now if that is earlier. -/
theorem set_eq {s : Stamp} (haccess : r.access = .ok ()) (key : String) (hs : s.instant? = some t)
    (now : Instant) :
    set r key s now =
      (.ok (), { r with settings := written r.settings key (Stamp.utc (min t now)).text }) := by
  simp only [set, hs, haccess]

theorem set_utc (haccess : r.access = .ok ()) (key : String) (hpast : 0 ≤ t)
    (hlimit : t < Instant.limit) (now : Instant) :
    set r key (.utc t) now =
      (.ok (), { r with settings := written r.settings key (Stamp.utc (min t now)).text }) :=
  set_eq haccess key (Stamp.instant?_utc ⟨hpast, hlimit⟩) now

/-- What cannot be set leaves the register alone. -/
theorem register_of_set_error {s : Stamp} {f : Failure} (h : (set r key s now).1 = .error f) :
    (set r key s now).2 = r := by
  unfold set at h ⊢
  split
  next => rfl
  next t hinstant =>
    rw [hinstant] at h
    dsimp only at h
    split at h <;> cases h

theorem get_of_stored {s : Stamp} {lookback : Double} (haccess : r.access = .ok ())
    (hstored : stored? (valueOf r key) = some s) (hs : s.instant? = some t) (hnow : t ≤ now) :
    get r key lookback now = .ok t := by
  simp only [get, haccess]
  unfold valueOf at hstored
  simp only [hstored, hs, if_neg (Int.not_lt.mpr hnow)]

/-! ## The rows -/

theorem filter_ne_written (settings : List SettingRow) (key value : String) :
    (written settings key value).filter (·.key != key) = settings.filter (·.key != key) := by
  induction settings with
  | nil => simp [written]
  | cons s rest ih =>
    by_cases hs : s.key = key
    · simp [written, hs]
    · simp [written, hs, ih]

/-- A key that has one row at most has one row when it has been written. -/
theorem filter_key_written {settings : List SettingRow} (value : String)
    (hunique : (settings.filter (·.key == key)).length ≤ 1) :
    ∃ row, (written settings key value).filter (·.key == key) = [row] ∧ row.value = some value := by
  induction settings with
  | nil => exact ⟨⟨key, some value, some settingType, true⟩, by simp [written], rfl⟩
  | cons s rest ih =>
    by_cases hs : s.key = key
    · have hrest : rest.filter (·.key == key) = [] := by
        simpa [List.filter_cons, hs] using hunique
      exact ⟨{ s with value := some value }, by simp [written, hs, hrest], rfl⟩
    · have hunique' : (rest.filter (·.key == key)).length ≤ 1 := by
        simpa [List.filter_cons, hs] using hunique
      simpa [written, hs] using ih hunique'

/-- A checkpoint that has been set is read, from then on, as the earlier one of the time that was given
and the clock at the writing. Its key has one row then, and nothing else has changed. -/
theorem get_after_set {s : Stamp} {later : Instant} (haccess : r.access = .ok ())
    (hunique : (r.settings.filter (·.key == key)).length ≤ 1) (hpast : 0 ≤ s.wall)
    (hlimit : s.wall < Instant.limit) (hs : s.instant? = some t) (hnow : 0 ≤ now)
    (hlater : now ≤ later) (lookback : Double) :
    ∃ r', set r key s now = (.ok (), r') ∧ get r' key lookback later = .ok (min t now) ∧
      (∃ row, r'.settings.filter (·.key == key) = [row]) ∧
      r'.settings.filter (·.key != key) = r.settings.filter (·.key != key) ∧
      { r' with settings := r.settings } = r := by
  obtain ⟨ht, htlimit⟩ := Stamp.instant?_bounds hpast hlimit hs
  have hmin : 0 ≤ min t now ∧ min t now < Instant.limit :=
    ⟨Int.le_min.mpr ⟨ht, hnow⟩, Int.lt_of_le_of_lt (Int.min_le_left ..) htlimit⟩
  obtain ⟨row, hrow, -⟩ := filter_key_written (Stamp.utc (min t now)).text hunique
  refine ⟨_, set_eq haccess key hs now, ?_, ⟨row, hrow⟩, filter_ne_written .., rfl⟩
  refine get_of_stored haccess ?_ (Stamp.instant?_utc hmin) ?_
  · rw [valueOf, Register.setting?, valueOf_written]
    exact stored?_text hmin.1 hmin.2
  · exact Int.le_trans (Int.min_le_right t now) hlater

/-- Settings with a checkpoint that cannot be read. -/
def oldCheckpoint : Register :=
  { Register.empty with settings := [⟨"COMPLAINT_TYPES", some "[]", none, true⟩,
      ⟨"run", some "yesterday", some settingType, true⟩, ⟨"other", none, none, false⟩] }

/-- Where UTC is half an hour ahead of a stamp of three o'clock, so that the stamp lies ahead of a clock
at three, the clock is taken. -/
theorem oldCheckpoint_get_after_set :
    (oldCheckpoint.settings.filter (·.key == "run")).length ≤ 1 ∧
      (Stamp.mk (3 * Span.hour) (some (-(30 * Span.minute)))).instant? =
        some (3 * Span.hour + 30 * Span.minute) ∧
      ∃ r', set oldCheckpoint "run" ⟨3 * Span.hour, some (-(30 * Span.minute))⟩ (3 * Span.hour) =
          (.ok (), r') ∧
        get r' "run" .zero (4 * Span.hour) = .ok (3 * Span.hour) ∧
        r'.settings.filter (·.key != "run") = oldCheckpoint.settings.filter (·.key != "run") := by
  have hunique : (oldCheckpoint.settings.filter (·.key == "run")).length ≤ 1 := by decide +kernel
  have hinstant : (Stamp.mk (3 * Span.hour) (some (-(30 * Span.minute)))).instant? =
      some (3 * Span.hour + 30 * Span.minute) := by decide +kernel
  have hclock : 3 * Span.hour ≤ 4 * Span.hour := by decide
  obtain ⟨r', hset, hget, -, hothers, -⟩ := get_after_set (r := oldCheckpoint) rfl hunique (by decide)
    (by decide +kernel) hinstant (by decide) hclock .zero
  exact ⟨hunique, hinstant, r', hset, hget, hothers⟩

end Checkpoint

end FaultDesk
