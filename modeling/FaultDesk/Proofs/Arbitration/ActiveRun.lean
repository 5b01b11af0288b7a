import Mathlib.Data.List.DropRight
import FaultDesk.Arbitration

/-!
The run that a master rule finds is the longest block of readings that ends at the latest one and on
all of which the condition of the rule is true.
-/

namespace FaultDesk

theorem Sample.sorted_of_ordered {samples : List Sample}
    (h : samples.Pairwise fun a b => a.time ≤ b.time) : Sample.sorted samples = samples :=
  List.mergeSort_of_pairwise (h.imp fun hle => decide_eq_true hle)

namespace MasterRule

/-- The samples of a batch that a rule looks at, in order of time. -/
def relevant (r : MasterRule) (samples : List Sample) : List Sample :=
  (Sample.sorted samples).filter r.concerns

/-- Whether the condition of a rule is true at a sample. -/
def trueAt (r : MasterRule) (s : Sample) : Bool := decide (r.holdsAt s.value = .ok true)

/-- The longest block of relevant samples that ends at the latest one and on all of which the
condition of the rule is true. -/
def trailing (r : MasterRule) (samples : List Sample) : List Sample :=
  (r.relevant samples).rtakeWhile r.trueAt

end MasterRule

namespace ActiveRun

/-- The first and the latest sample of a block. -/
def bounds : List Sample → Option (Sample × Sample)
  | [] => none
  | s :: rest => some (s, (s :: rest).getLast (List.cons_ne_nil s rest))

theorem bounds_concat (block : List Sample) (s : Sample) :
    bounds (block ++ [s]) = some (((bounds block).map (·.1)).getD s, s) := by
  cases block with
  | nil => rfl
  | cons first rest => simp [bounds]

theorem bounds_eq_some {block : List Sample} {first latest : Sample}
    (h : bounds block = some (first, latest)) :
    block.head? = some first ∧ block.getLast? = some latest := by
  cases block with
  | nil => simp [bounds] at h
  | cons s rest =>
    obtain ⟨rfl, rfl⟩ := Prod.mk.inj (Option.some.inj h)
    exact ⟨rfl, List.getLast?_eq_some_getLast _⟩

/-- The run that a rule has when these are all the samples that it has looked at. -/
def ofSeen (r : MasterRule) (seen : List Sample) : Option ActiveRun :=
  (bounds (seen.rtakeWhile r.trueAt)).map fun (first, latest) =>
    ⟨first, latest, seen.any fun s => !r.trueAt s⟩

/-- Following the run gives that of all samples looked at, unless an evaluation fails. -/
theorem follow_ok_iff {r : MasterRule} {seen rest : List Sample} {out : Option ActiveRun} :
    follow r (bounds (seen.rtakeWhile r.trueAt)) (seen.any fun s => !r.trueAt s) rest = .ok out ↔
      (∀ s ∈ rest.filter r.concerns, ∃ b, r.holdsAt s.value = .ok b) ∧
        out = ofSeen r (seen ++ rest.filter r.concerns) := by
  induction rest generalizing seen with
  | nil =>
    simp only [follow, ofSeen, List.filter_nil, List.append_nil, Except.ok.injEq]
    exact ⟨fun h => ⟨by simp, h.symm⟩, fun h => h.2.symm⟩
  | cons s rest ih =>
    cases hc : r.concerns s with
    | false =>
      simp only [follow, hc, Bool.false_eq_true, ↓reduceIte, not_false_eq_true,
        List.filter_cons_of_neg]
      exact ih
    | true =>
      have hsplit : seen ++ (s :: rest).filter r.concerns =
          (seen ++ [s]) ++ rest.filter r.concerns := by
        simp [hc]
      simp only [follow, hc, ↓reduceIte, hsplit]
      rw [List.filter_cons_of_pos hc]
      cases hv : r.holdsAt s.value with
      | error e => simp [hv]
      | ok b =>
        have htrue : r.trueAt s = b := by simp [MasterRule.trueAt, hv]
        have hstep := @ih (seen ++ [s])
        rw [List.rtakeWhile_concat, List.any_append] at hstep
        cases b with
        | false =>
          simp only [htrue, Bool.false_eq_true, ↓reduceIte, List.any_cons, List.any_nil,
            Bool.not_false, Bool.or_false, Bool.or_true] at hstep
          simpa [bounds, hv] using hstep
        | true =>
          simp only [htrue, ↓reduceIte, bounds_concat, List.any_cons, List.any_nil, Bool.not_true,
            Bool.or_false] at hstep
          simpa [hv] using hstep

theorem find_ok_iff {r : MasterRule} {samples : List Sample} {out : Option ActiveRun} :
    find r samples = .ok out ↔
      (∀ s ∈ r.relevant samples, ∃ b, r.holdsAt s.value = .ok b) ∧
        out = ofSeen r (r.relevant samples) :=
  @follow_ok_iff r [] (Sample.sorted samples) out

/-- What a run tells of the samples that the rule looks at. -/
theorem find_some {r : MasterRule} {samples : List Sample} {run : ActiveRun}
    (h : find r samples = .ok (some run)) :
    (r.trailing samples).head? = some run.first ∧
      (r.trailing samples).getLast? = some run.latest ∧
      (run.interrupted = true ↔ ∃ s ∈ r.relevant samples, r.trueAt s = false) := by
  obtain ⟨-, hrun⟩ := find_ok_iff.mp h
  obtain ⟨⟨first, latest⟩, hbounds, rfl⟩ := Option.map_eq_some_iff.mp hrun.symm
  obtain ⟨hfirst, hlatest⟩ := bounds_eq_some hbounds
  exact ⟨hfirst, hlatest, by simp⟩

theorem find_none {r : MasterRule} {samples : List Sample} (h : find r samples = .ok none) :
    r.trailing samples = [] := by
  obtain ⟨-, hrun⟩ := find_ok_iff.mp h
  have hbounds := Option.map_eq_none_iff.mp hrun.symm
  change bounds (r.trailing samples) = none at hbounds
  cases hblock : r.trailing samples with
  | nil => rfl
  | cons s rest => simp [hblock, bounds] at hbounds

end ActiveRun

end FaultDesk
