import FaultDesk.Proofs.Arbitration.Standing
import FaultDesk.Proofs.Selection.OfInterest

/-!
The run of a master rule, said of its samples alone: it is there if the condition is true at the latest
one, it begins with the longest block of true samples that ends there, and it was interrupted if the
condition was ever false. Samples that the rule does not look at, and the order in which samples of
different times come in, make no difference.
-/

namespace FaultDesk

/-! ## The longest block at the end -/

/-- The longest block that ends a list and on all of which a property holds. -/
structure LongestEnd {α : Type} (p : α → Prop) (block whole : List α) : Prop where
  ends : block <:+ whole
  holds : ∀ x ∈ block, p x
  longest : ∀ other, other <:+ whole → (∀ x ∈ other, p x) → other.length ≤ block.length

theorem longestEnd_rtakeWhile {α : Type} (p : α → Bool) (whole : List α) :
    LongestEnd (fun x => p x = true) (whole.rtakeWhile p) whole := by
  refine ⟨List.rtakeWhile_suffix p whole, fun x hx => List.mem_rtakeWhile_imp hx, ?_⟩
  rintro other ⟨before, rfl⟩ hother
  have hreversed : ∀ x ∈ other.reverse, p x = true := fun x hx => hother x (List.mem_reverse.mp hx)
  rw [List.rtakeWhile, List.reverse_append, List.takeWhile_append_of_pos hreversed]
  simp

/-! ## Samples of one time -/

namespace Sample

/-- Samples of one time keep their order. -/
theorem sorted_filter_time (samples : List Sample) (i : Instant) :
    (sorted samples).filter (fun s => s.time == i) = samples.filter fun s => s.time == i := by
  rw [← sorted_filter]
  apply sorted_of_ordered
  rw [List.pairwise_filter]
  refine List.pairwise_of_forall ?_
  intro a b ha hb
  rw [beq_iff_eq] at ha hb
  rw [ha, hb]

/-- Samples of different times may come in any order. -/
theorem filter_time_of_perm {xs ys : List Sample} (h : xs.Perm ys)
    (hdistinct : (xs.map (·.time)).Nodup) (i : Instant) :
    xs.filter (fun s => s.time == i) = ys.filter fun s => s.time == i := by
  have hlone {zs : List Sample} (hzs : (zs.map (·.time)).Nodup) :
      (zs.filter fun s => s.time == i).Pairwise fun _ _ => False := by
    rw [List.pairwise_filter]
    refine (List.pairwise_map.mp hzs).imp ?_
    intro a b hne ha hb
    rw [beq_iff_eq] at ha hb
    exact hne (ha.trans hb.symm)
  exact List.Perm.eq_of_pairwise (fun _ _ _ _ hle => hle.elim) (hlone hdistinct)
    (hlone ((h.map _).nodup_iff.mp hdistinct)) (h.filter _)

/-- Samples in order of time are told by those of each time. -/
theorem eq_of_ordered {xs ys : List Sample} (hx : xs.Pairwise fun a b => a.time ≤ b.time)
    (hy : ys.Pairwise fun a b => a.time ≤ b.time)
    (h : ∀ i : Instant, xs.filter (fun s => s.time == i) = ys.filter fun s => s.time == i) :
    xs = ys := by
  have hmem {s : Sample} : s ∈ xs ↔ s ∈ ys := by
    have hs := congrArg (s ∈ ·) (h s.time)
    simpa using hs
  induction xs generalizing ys with
  | nil =>
    cases ys with
    | nil => rfl
    | cons b ys => exact absurd (hmem.mpr List.mem_cons_self) (by simp)
  | cons a xs ih =>
    cases ys with
    | nil => exact absurd (hmem.mp List.mem_cons_self) (by simp)
    | cons b ys =>
      obtain ⟨hafter, hx'⟩ := List.pairwise_cons.mp hx
      obtain ⟨hbehind, hy'⟩ := List.pairwise_cons.mp hy
      have hle : a.time ≤ b.time := by
        rcases List.mem_cons.mp (hmem.mpr List.mem_cons_self) with rfl | hb
        · exact Int.le_refl _
        · exact hafter b hb
      have hge : b.time ≤ a.time := by
        rcases List.mem_cons.mp (hmem.mp List.mem_cons_self) with rfl | ha
        · exact Int.le_refl _
        · exact hbehind a ha
      have htime : b.time = a.time := Int.le_antisymm hge hle
      have hhead := h a.time
      simp only [List.filter_cons, htime, beq_self_eq_true, ↓reduceIte, List.cons.injEq] at hhead
      obtain ⟨rfl, -⟩ := hhead
      have hrest (i : Instant) :
          xs.filter (fun s => s.time == i) = ys.filter fun s => s.time == i := by
        have hi := h i
        simp only [List.filter_cons] at hi
        split at hi
        next => exact (List.cons.inj hi).2
        next => exact hi
      rw [ih hx' hy' hrest]
      intro s
      have hs := congrArg (s ∈ ·) (hrest s.time)
      simpa using hs

end Sample

/-! ## The run -/

namespace MasterRule

variable {r : MasterRule} {samples others : List Sample}

theorem trueAt_eq_false_iff {s : Sample} (h : ∃ b, r.holdsAt s.value = .ok b) :
    r.trueAt s = false ↔ r.holdsAt s.value = .ok false := by
  obtain ⟨b, hb⟩ := h
  cases b <;> simp [trueAt, hb]

/-- The samples of each time that a rule looks at, in the order in which they came in, are all that
counts. -/
theorem relevant_congr
    (h : ∀ i : Instant, (others.filter fun s => r.concerns s && s.time == i) =
      samples.filter fun s => r.concerns s && s.time == i) : r.relevant others = r.relevant samples := by
  rw [relevant, relevant, ← Sample.sorted_filter, ← Sample.sorted_filter]
  refine Sample.eq_of_ordered (Sample.ordered_sorted _) (Sample.ordered_sorted _) fun i => ?_
  rw [Sample.sorted_filter_time, Sample.sorted_filter_time, List.filter_filter, List.filter_filter]
  simpa only [Bool.and_comm] using h i

end MasterRule

namespace ActiveRun

variable {r : MasterRule} {samples : List Sample}

theorem ofSeen_eq_none_iff {seen : List Sample} :
    ofSeen r seen = none ↔ seen = [] ∨ ∃ s, seen.getLast? = some s ∧ r.trueAt s = false := by
  rcases List.eq_nil_or_concat seen with rfl | ⟨before, s, rfl⟩
  · simp [ofSeen, bounds, List.rtakeWhile]
  · cases hs : r.trueAt s with
    | false => simp [ofSeen, hs, bounds]
    | true => simp [ofSeen, hs, bounds_concat]

/-- Where the condition can be judged at all relevant samples, the run that is found is the longest
block of true ones that ends at the latest. -/
theorem find_longest_end
    (hjudged : ∀ s ∈ r.relevant samples, ∃ b, r.holdsAt s.value = .ok b) :
    ∃ out, find r samples = .ok out ∧
      (out = none ↔ r.relevant samples = [] ∨
        ∃ s, (r.relevant samples).getLast? = some s ∧ r.holdsAt s.value = .ok false) ∧
      (∀ run, out = some run →
        (r.relevant samples).getLast? = some run.latest ∧
        (∃ block, LongestEnd (fun s => r.holdsAt s.value = .ok true) block (r.relevant samples) ∧
          block.head? = some run.first) ∧
        (run.interrupted = true ↔ ∃ s ∈ r.relevant samples, r.holdsAt s.value = .ok false)) ∧
      ∀ others : List Sample,
        (∀ i : Instant, (others.filter fun s => r.concerns s && s.time == i) =
          samples.filter fun s => r.concerns s && s.time == i) →
        find r others = .ok out := by
  have hfalse {s : Sample} (hs : s ∈ r.relevant samples) :=
    MasterRule.trueAt_eq_false_iff (hjudged s hs)
  refine ⟨_, find_ok_iff.mpr ⟨hjudged, rfl⟩, ?_, ?_, ?_⟩
  · rw [ofSeen_eq_none_iff]
    refine or_congr_right (exists_congr fun s => and_congr_right fun hs => ?_)
    exact hfalse (List.mem_of_getLast? hs)
  · intro run hrun
    obtain ⟨hfirst, hlatest, hinterrupted⟩ := find_some (find_ok_iff.mpr ⟨hjudged, hrun.symm⟩)
    refine ⟨?_, ⟨_, ?_, hfirst⟩, ?_⟩
    · exact (MasterRule.getLast?_trailing hlatest).1
    · have htrue (s : Sample) : r.trueAt s = true ↔ r.holdsAt s.value = .ok true := decide_eq_true_iff
      have hlongest := longestEnd_rtakeWhile r.trueAt (r.relevant samples)
      simp only [htrue] at hlongest
      exact hlongest
    · rw [hinterrupted]
      exact exists_congr fun s => and_congr_right hfalse
  · intro others hsame
    have hrelevant := MasterRule.relevant_congr hsame
    exact find_ok_iff.mpr ⟨by rw [hrelevant]; exact hjudged, by rw [hrelevant]⟩

/-- So many readings of the tag that tells a silence, each with its minute. -/
def readings (entries : List (Int × Nat)) : List Sample :=
  entries.map fun (n, minutes) => .reading "Tag8" n minutes

/-- A unit that has spoken once, with a reading of another tag. -/
def spokenOnce : List Sample :=
  readings [(0, 0), (1, 10)] ++ .reading "Tag5" 1 15 :: readings [(0, 20), (0, 30)]

theorem sorted_spokenOnce : Sample.sorted spokenOnce = spokenOnce :=
  Sample.sorted_of_ordered (by decide)

/-- The same readings of the silence come in later and in another order. -/
theorem silence_since_last_word :
    (∀ s ∈ silence.relevant spokenOnce, ∃ b, silence.holdsAt s.value = .ok b) ∧
      ∃ run, find silence spokenOnce = .ok (some run) ∧ run.first.time = 1200000000 ∧
        run.latest.time = 1800000000 ∧ run.interrupted = true ∧
        find silence (readings [(0, 30), (0, 0), (0, 20), (1, 10)]) = .ok (some run) := by
  have hjudged : ∀ s ∈ silence.relevant spokenOnce, ∃ b, silence.holdsAt s.value = .ok b := by
    have hread : ∀ s ∈ spokenOnce, (silence.holdsAt s.value).isOk = true := by decide +kernel
    intro s hs
    have hok := hread s (MasterRule.mem_relevant.mp hs).1
    cases hv : silence.holdsAt s.value with
    | error e => simp [hv, Except.isOk, Except.toBool] at hok
    | ok b => exact ⟨b, rfl⟩
  obtain ⟨out, hfound, -, -, hothers⟩ := find_longest_end hjudged
  have hrun : (find silence spokenOnce).toOption.bind (Option.map fun run =>
      (run.first.time, run.latest.time, run.interrupted)) =
        some (1200000000, 1800000000, true) := by
    rw [find, sorted_spokenOnce]
    decide +kernel
  rw [hfound] at hrun
  obtain ⟨run, rfl, htimes⟩ := Option.map_eq_some_iff.mp hrun
  obtain ⟨hfirst, hrest⟩ := Prod.mk.inj htimes
  obtain ⟨hlatest, hinterrupted⟩ := Prod.mk.inj hrest
  refine ⟨hjudged, run, hfound, hfirst, hlatest, hinterrupted, hothers _ fun i => ?_⟩
  have hreceived : (readings [(0, 30), (0, 0), (0, 20), (1, 10)]).filter silence.concerns =
      readings [(0, 30), (0, 0), (0, 20), (1, 10)] := rfl
  have hseen : spokenOnce.filter silence.concerns = readings [(0, 0), (1, 10), (0, 20), (0, 30)] := rfl
  simp only [Bool.and_comm (silence.concerns _), ← List.filter_filter, hreceived, hseen]
  exact Sample.filter_time_of_perm (List.Perm.map _ (by decide)) (by decide) i

end ActiveRun

end FaultDesk
