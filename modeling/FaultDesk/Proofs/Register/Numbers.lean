import Mathlib.Data.List.MinMax
import FaultDesk.Proofs.Number.Figures
import FaultDesk.Register.Numbering

/-!
Which value the next complaint number has. The search goes on from the first number that ends in
figures among the longest ones; that is the greatest value in use where all numbers are regular, and
a register that gives out its numbers itself stays regular.
-/

namespace FaultDesk

namespace Numbering

variable {n : Numbering} {numbers : List String} {s t : String} {v w : Nat}

/-! ## Numbers and their values -/

/-- The number of a value. -/
def label (n : Numbering) (v : Nat) : String := n.head ++ String.ofList (Whole.figures n.width v)

/-- The value of a number that is the head and ASCII digits behind it. -/
def valueOf? (n : Numbering) (s : String) : Option Nat :=
  let ds := s.toList.drop n.head.length
  if n.head.toList.isPrefixOf s.toList ∧ AreDigits ds then some (Numeral.valueOf ds) else none

/-- The value behind the greatest in use, or the one to start with. -/
def due (n : Numbering) (numbers : List String) : Nat :=
  ((numbers.filterMap n.valueOf?).max?.map (· + 1)).getD n.start.toNat

theorem drop_head (n : Numbering) (ds : List Char) :
    (n.head.toList ++ ds).drop n.head.length = ds :=
  List.drop_left' String.length_toList

theorem valueOf?_eq_some : n.valueOf? s = some v ↔
    ∃ ds, AreDigits ds ∧ s = n.head ++ String.ofList ds ∧ Numeral.valueOf ds = v := by
  unfold valueOf?
  dsimp only
  constructor
  · intro h
    split at h
    next hs =>
      obtain ⟨hfront, hdigits⟩ := hs
      refine ⟨_, hdigits, ?_, Option.some.inj h⟩
      obtain ⟨ds, hds⟩ := List.isPrefixOf_iff_prefix.mp hfront
      rw [← String.toList_inj, ← hds, drop_head]
      simp
    next => cases h
  · rintro ⟨ds, hdigits, rfl, rfl⟩
    simp [drop_head, hdigits]

theorem valueOf?_label (n : Numbering) (v : Nat) : n.valueOf? (n.label v) = some v :=
  valueOf?_eq_some.mpr
    ⟨_, Whole.areDigits_figures n.width v, rfl, Whole.valueOf_figures n.width v⟩

theorem label_injective (h : n.label v = n.label w) : v = w := by
  have hv := valueOf?_label n v
  rw [h, valueOf?_label] at hv
  exact (Option.some.inj hv).symm

theorem le_of_valueOf?_lt_due (hs : s ∈ numbers) (hv : n.valueOf? s = some v) :
    v < n.due numbers := by
  have hmem : v ∈ numbers.filterMap n.valueOf? := List.mem_filterMap.mpr ⟨s, hs, hv⟩
  have hne : numbers.filterMap n.valueOf? ≠ [] := List.ne_nil_of_mem hmem
  have hle := List.le_max_of_mem hmem
  unfold due
  rw [List.max?_eq_some_max hne]
  simpa using Nat.lt_succ_of_le hle

/-- The number of the value that is due is not in use. -/
theorem label_due_not_mem (n : Numbering) (numbers : List String) :
    n.label (n.due numbers) ∉ numbers := fun hmem =>
  lt_irrefl _ (le_of_valueOf?_lt_due hmem (valueOf?_label n _))

/-! ## The first number -/

theorem before_iff : before s t = true ↔
    t.length < s.length ∨ s.length = t.length ∧ t ≤ s := by
  unfold before
  split
  next h => simp [h]
  next h => simp [h]

theorem before_trans (r s t : String) (h : before r s = true) (h' : before s t = true) :
    before r t = true := by
  rw [before_iff] at h h' ⊢
  rcases h with hlt | ⟨heq, hle⟩ <;> rcases h' with hlt' | ⟨heq', hle'⟩
  · exact Or.inl (hlt'.trans hlt)
  · exact Or.inl (by omega)
  · exact Or.inl (by omega)
  · exact Or.inr ⟨heq.trans heq', hle'.trans hle⟩

theorem before_total (s t : String) : (before s t || before t s) = true := by
  rw [Bool.or_eq_true, before_iff, before_iff]
  rcases lt_trichotomy s.length t.length with hlt | heq | hgt
  · exact Or.inr (Or.inl hlt)
  · rcases le_total s t with hle | hle
    · exact Or.inr (Or.inr ⟨heq.symm, hle⟩)
    · exact Or.inl (Or.inr ⟨heq, hle⟩)
  · exact Or.inl (Or.inl hgt)

theorem startsLike_of_valueOf? (h : n.valueOf? s = some v) :
    Text.startsLike n.head s = true := by
  obtain ⟨ds, -, rfl, -⟩ := valueOf?_eq_some.mp h
  simp [Text.startsLike]

/-- Where some number starts like the head, the first of the longest goes before all of them. -/
theorem head?_longest (hs : s ∈ numbers) (hlike : Text.startsLike n.head s = true) :
    ∃ first, (n.longest numbers).head? = some first ∧ first ∈ numbers ∧
      Text.startsLike n.head first = true ∧
      ∀ t ∈ numbers, Text.startsLike n.head t = true → before first t = true := by
  have hsorted : ((numbers.filter (Text.startsLike n.head)).mergeSort before).Pairwise
      fun a b => before a b = true :=
    List.pairwise_mergeSort before_trans before_total _
  have hmem (t : String) : t ∈ (numbers.filter (Text.startsLike n.head)).mergeSort before ↔
      t ∈ numbers ∧ Text.startsLike n.head t = true := by
    rw [List.mem_mergeSort, List.mem_filter]
  unfold longest
  generalize (numbers.filter (Text.startsLike n.head)).mergeSort before = sorted at hsorted hmem ⊢
  cases sorted with
  | nil => exact absurd ((hmem s).mpr ⟨hs, hlike⟩) List.not_mem_nil
  | cons first rest =>
    obtain ⟨hfirst, hfirst'⟩ := (hmem first).mp List.mem_cons_self
    refine ⟨first, rfl, hfirst, hfirst', ?_⟩
    intro t ht ht'
    rcases List.mem_cons.mp ((hmem t).mpr ⟨ht, ht'⟩) with rfl | hrest
    · exact before_iff.mpr (Or.inr ⟨rfl, le_rfl⟩)
    · exact (List.pairwise_cons.mp hsorted).1 t hrest

theorem longest_of_ordered (hlike : ∀ s ∈ numbers, Text.startsLike n.head s = true)
    (hordered : numbers.Pairwise fun s t => before s t = true) :
    n.longest numbers = numbers.take attempts := by
  unfold longest
  rw [List.filter_eq_self.mpr hlike, List.mergeSort_of_pairwise hordered]

/-- A number that goes before another has no smaller value, unless it is longer. -/
theorem le_of_before (hs : n.valueOf? s = some v) (ht : n.valueOf? t = some w)
    (hbefore : before s t = true) (hlength : s.length ≤ t.length) : w ≤ v := by
  obtain hlt | ⟨heq, hle⟩ := before_iff.mp hbefore
  · omega
  · obtain ⟨ds, hds, rfl, rfl⟩ := valueOf?_eq_some.mp hs
    obtain ⟨es, hes, rfl, rfl⟩ := valueOf?_eq_some.mp ht
    have hlength' : ds.length = es.length := by simpa using heq
    by_contra hlt
    have hdes : ds < es :=
      (Numeral.lt_iff_valueOf_lt hds.2 hes.2 hlength').mpr (Nat.lt_of_not_le hlt)
    refine absurd hle (not_le.mpr (String.lt_iff_toList_lt.mpr ?_))
    simpa using List.append_left_lt hdes

/-! ## Regular numbers -/

/-- All numbers that start like the head are the head and digits, and no longer one has a smaller
value. -/
structure Regular (n : Numbering) (numbers : List String) : Prop where
  digits : ∀ s ∈ numbers, Text.startsLike n.head s = true → ∃ v, n.valueOf? s = some v
  grows : ∀ s ∈ numbers, ∀ t ∈ numbers, ∀ v w, n.valueOf? s = some v → n.valueOf? t = some w →
    s.length < t.length → v ≤ w

theorem firstValue_of_none (hnone : ∀ s ∈ numbers, Text.startsLike n.head s = false) :
    n.firstValue numbers = .ok n.start := by
  have hfilter : numbers.filter (Text.startsLike n.head) = [] := by
    simpa [List.filter_eq_nil_iff] using hnone
  simp [firstValue, highestTail?, longest, hfilter]

theorem firstValue_of_head? {ds : List Char} (hds : AreDigits ds)
    (h : (n.longest numbers).head? = some (n.head ++ String.ofList ds)) :
    n.firstValue numbers = if Whole.digitLimit < ds.length then .error (.tooManyFigures ds.length)
      else .ok (Numeral.valueOf ds + 1) := by
  obtain ⟨rest, hlongest⟩ := List.head?_eq_some_iff.mp h
  have htail : n.tail (n.head ++ String.ofList ds) = String.ofList ds := by
    simp [tail, drop_head]
  have hhighest : n.highestTail? numbers = some (String.ofList ds) := by
    simp [highestTail?, hlongest, htail, Text.allFigures_of_digits hds]
  simp only [firstValue, hhighest, Whole.read_digits hds]
  split <;> rfl

/-- Among regular numbers the search begins with the value that is due, unless a number in use has
more digits than can be read. -/
theorem Regular.firstValue_cases (h : n.Regular numbers) (hstart : 0 ≤ n.start) :
    n.firstValue numbers = .ok (n.due numbers) ∨
      ∃ ds e, n.head ++ String.ofList ds ∈ numbers ∧ Whole.digitLimit < ds.length ∧
        n.firstValue numbers = .error e := by
  by_cases hlike : ∃ s ∈ numbers, Text.startsLike n.head s = true
  · obtain ⟨s, hs, hslike⟩ := hlike
    obtain ⟨first, hhead, hfirst, hlike, hbefore⟩ := head?_longest hs hslike
    obtain ⟨v, hv⟩ := h.digits first hfirst hlike
    obtain ⟨ds, hds, hfirst_eq, hvalue⟩ := valueOf?_eq_some.mp hv
    -- the first of the longest has the greatest value
    have hmax : (numbers.filterMap n.valueOf?).max? = some v := by
      refine List.max?_eq_some_iff.mpr ⟨List.mem_filterMap.mpr ⟨first, hfirst, hv⟩, ?_⟩
      intro w hw
      obtain ⟨t, ht, htw⟩ := List.mem_filterMap.mp hw
      rcases Nat.lt_or_ge t.length first.length with hlt | hge
      · exact h.grows t ht first hfirst w v htw hv hlt
      · exact le_of_before hv htw (hbefore t ht (startsLike_of_valueOf? htw)) hge
    rw [hfirst_eq] at hhead hfirst
    rw [firstValue_of_head? hds hhead, hvalue, due, hmax]
    split
    next hlong => exact Or.inr ⟨ds, _, hfirst, hlong, rfl⟩
    next => exact Or.inl rfl
  · have hnone : ∀ s ∈ numbers, Text.startsLike n.head s = false := by
      intro s hs
      by_contra hlike'
      exact hlike ⟨s, hs, by simpa using hlike'⟩
    have hvalues : numbers.filterMap n.valueOf? = [] := by
      refine List.filterMap_eq_nil_iff.mpr ?_
      intro s hs
      cases hv : n.valueOf? s with
      | none => rfl
      | some v =>
        have hlike' := startsLike_of_valueOf? hv
        rw [hnone s hs] at hlike'
        cases hlike'
    left
    rw [firstValue_of_none hnone, due, hvalues]
    simp [hstart]

/-- Numbers of the numbering itself are regular. -/
theorem regular_of_labels (h : ∀ s ∈ numbers, ∃ v, s = n.label v) : n.Regular numbers := by
  refine ⟨?_, ?_⟩
  · intro s hs _
    obtain ⟨v, rfl⟩ := h s hs
    exact ⟨v, valueOf?_label n v⟩
  · intro s hs t ht v w hv hw hlt
    obtain ⟨v', rfl⟩ := h s hs
    obtain ⟨w', rfl⟩ := h t ht
    rw [valueOf?_label] at hv hw
    cases hv
    cases hw
    by_contra hwv
    have hle := Whole.length_figures_mono n.width (Nat.le_of_not_le hwv)
    simp only [label, String.length_append, String.length_ofList] at hlt
    omega

/-! ## The first free number -/

theorem number_of_length (h : (Whole.figures n.width v).length ≤ Whole.digitLimit) :
    n.number v = .ok (n.label v) := by
  have hvalue : v < Nat.pow 10 Whole.digitLimit := Whole.lt_pow_of_length_figures h
  have hwidth : ¬ ((Nat.pow 2 63 : Nat) : Int) ≤ n.width := by
    rw [Whole.length_figures] at h
    have hle : n.width.toNat ≤ 4300 := (le_max_left _ _).trans h
    have hpow : Nat.pow 2 63 = 9223372036854775808 := by decide
    omega
  unfold number
  rw [Whole.write_of_lt hvalue]
  simp only [bind, Except.bind, if_neg hwidth, String.toList_ofList]
  rfl

theorem number_cases (n : Numbering) (v : Nat) :
    n.number v = .ok (n.label v) ∨ ∃ e, n.number v = .error e := by
  rcases Nat.lt_or_ge v (Nat.pow 10 Whole.digitLimit) with hlt | hge
  · unfold number
    rw [Whole.write_of_lt hlt]
    simp only [bind, Except.bind, String.toList_ofList]
    split
    next => exact Or.inr ⟨_, rfl⟩
    next => exact Or.inl rfl
  · refine Or.inr ⟨.tooManyDigits, ?_⟩
    unfold number
    rw [Whole.write_of_le hge]
    rfl

theorem freeFrom_of_error {tries : Nat} {value : Int} {e : Failure}
    (h : n.number value = .error e) :
    n.freeFrom numbers (tries + 1) value = .error (.failed e) := by
  rw [freeFrom, h]
  rfl

theorem freeFrom_of_mem {tries : Nat} {value : Int} (h : n.number value = .ok s)
    (hs : s ∈ numbers) :
    n.freeFrom numbers (tries + 1) value = n.freeFrom numbers tries (value + 1) := by
  rw [freeFrom, h]
  exact if_pos (by simpa using hs)

theorem freeFrom_of_not_mem {tries : Nat} {value : Int} (h : n.number value = .ok s)
    (hs : s ∉ numbers) : n.freeFrom numbers (tries + 1) value = .ok s := by
  rw [freeFrom, h]
  exact if_neg (by simpa using hs)

/-- The search for a free number where all numbers that it may try can be written. -/
theorem freeFrom_eq_find? {tries : Nat}
    (hfit : (Whole.figures n.width (v + tries)).length ≤ Whole.digitLimit) :
    n.freeFrom numbers tries v =
      match (List.range' v tries).find? fun w => !numbers.contains (n.label w) with
      | some w => .ok (n.label w)
      | none => .error .noneFree := by
  induction tries generalizing v with
  | zero => rfl
  | succ tries ih =>
    have hnumber : n.number v = .ok (n.label v) :=
      number_of_length ((Whole.length_figures_mono n.width (by omega)).trans hfit)
    rw [List.range'_succ, List.find?_cons]
    by_cases htaken : n.label v ∈ numbers
    · have hrest := @ih (v + 1) (by rwa [Nat.add_right_comm, Nat.add_assoc])
      rw [freeFrom_of_mem hnumber htaken]
      simpa [htaken] using hrest
    · rw [freeFrom_of_not_mem hnumber htaken]
      simp [htaken]

theorem freeFrom_eq_ok_iff {tries : Nat}
    (hfit : (Whole.figures n.width (v + tries)).length ≤ Whole.digitLimit) :
    n.freeFrom numbers tries v = .ok s ↔
      ∃ w, v ≤ w ∧ w < v + tries ∧ s = n.label w ∧ s ∉ numbers ∧
        ∀ u, v ≤ u → u < w → n.label u ∈ numbers := by
  rw [freeFrom_eq_find? hfit]
  constructor
  · intro h
    split at h
    next w hw =>
      obtain ⟨hfree, hmem, hbelow⟩ := List.find?_range'_eq_some.mp hw
      rw [List.mem_range'_1] at hmem
      cases h
      exact ⟨w, hmem.1, hmem.2, rfl, by simpa using hfree, by simpa using hbelow⟩
    next => cases h
  · rintro ⟨w, hle, hlt, rfl, hfree, hbelow⟩
    have hw : (List.range' v tries).find? (fun w => !numbers.contains (n.label w)) = some w :=
      List.find?_range'_eq_some.mpr
        ⟨by simpa using hfree, List.mem_range'_1.mpr ⟨hle, hlt⟩, by simpa using hbelow⟩
    rw [hw]

theorem freeFrom_eq_noneFree_iff {tries : Nat}
    (hfit : (Whole.figures n.width (v + tries)).length ≤ Whole.digitLimit) :
    n.freeFrom numbers tries v = .error .noneFree ↔
      ∀ w, v ≤ w → w < v + tries → n.label w ∈ numbers := by
  rw [freeFrom_eq_find? hfit]
  constructor
  · intro h w hle hlt
    split at h
    next => cases h
    next hnone => simpa using List.find?_eq_none.mp hnone w (List.mem_range'_1.mpr ⟨hle, hlt⟩)
  · intro h
    have hnone : (List.range' v tries).find? (fun w => !numbers.contains (n.label w)) = none := by
      refine List.find?_eq_none.mpr ?_
      intro w hw
      obtain ⟨hle, hlt⟩ := List.mem_range'_1.mp hw
      simpa using h w hle hlt
    rw [hnone]

/-- Where the number of a value is free, it is found at once or cannot be written. -/
theorem freeFrom_of_free {tries : Nat} (hfree : n.label v ∉ numbers) :
    n.freeFrom numbers (tries + 1) v = .ok (n.label v) ∨
      ∃ e, n.freeFrom numbers (tries + 1) v = .error (.failed e) := by
  rcases number_cases n v with hnumber | ⟨e, hnumber⟩
  · exact Or.inl (freeFrom_of_not_mem hnumber hfree)
  · exact Or.inr ⟨e, freeFrom_of_error hnumber⟩

end Numbering

end FaultDesk
