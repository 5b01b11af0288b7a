import Mathlib.Data.List.Basic
import FaultDesk.Text.Case

/-!
A text in upper case stays as it is when it is put in upper case again: no character that comes out
of the tables of upper forms goes into them.
-/

namespace FaultDesk

/-! ## Sets of code points -/

/-- A set of code points as one number: its bits are the members. -/
def codeMask (codes : List Nat) : Nat := codes.foldr (fun n m => Nat.pow 2 n ||| m) 0

theorem testBit_codeMask (codes : List Nat) (n : Nat) :
    (codeMask codes).testBit n = decide (n ∈ codes) := by
  induction codes with
  | nil => simp [codeMask]
  | cons c rest ih =>
    have hfirst : (Nat.pow 2 c).testBit n = decide (c = n) := Nat.testBit_two_pow
    change (Nat.pow 2 c ||| codeMask rest).testBit n = _
    rw [Nat.testBit_or, ih, hfirst]
    simp [eq_comm]

theorem notMem_of_codeMask {codes others : List Nat} (h : codeMask codes &&& codeMask others = 0)
    {n : Nat} (hn : n ∈ codes) : n ∉ others := by
  have hbit : (codeMask codes &&& codeMask others).testBit n = false := by
    rw [h, Nat.zero_testBit]
  rw [Nat.testBit_and, testBit_codeMask, testBit_codeMask] at hbit
  simpa [hn] using hbit

/-! ## The tables of upper forms -/

/-- As many code points as a run has, from a given one on. -/
def runFrom (start : Nat) (run : Nat × Nat × Nat × Nat) : List Nat :=
  List.range' start ((run.2.1 - run.1) / run.2.2.1 + 1) run.2.2.1

/-- The code points that have an upper form of their own. -/
def upperDomain : List Nat :=
  List.range' 0x61 26 ++ upperExpansions.map (·.1) ++ upperRuns.flatMap fun run => runFrom run.1 run

/-- The code points in upper forms, those of ASCII characters and of the tables. -/
def upperImages : List Nat :=
  (List.range 128).map (fun n => (Char.ofNat n).toUpper.toNat) ++ upperExpansions.flatMap (·.2) ++
    upperRuns.flatMap fun run => runFrom run.2.2.2 run

theorem notMem_upperDomain {n : Nat} (h : n ∈ upperImages) : n ∉ upperDomain :=
  notMem_of_codeMask (by decide +kernel) h

theorem mem_of_runForm {runs : List (Nat × Nat × Nat × Nat)} {code form : Nat}
    (h : runForm? code runs = some form) :
    code ∈ runs.flatMap (fun run => runFrom run.1 run) ∧
      form ∈ runs.flatMap (fun run => runFrom run.2.2.2 run) := by
  induction runs with
  | nil => cases h
  | cons run rest ih =>
    obtain ⟨first, last, step, target⟩ := run
    rw [List.flatMap_cons, List.flatMap_cons, List.mem_append, List.mem_append]
    unfold runForm? at h
    split at h
    next hin =>
      obtain ⟨hfirst, hlast, hstep⟩ := hin
      obtain rfl := Option.some.inj h
      have hcount : (code - first) / step < (last - first) / step + 1 :=
        Nat.lt_succ_of_le (Nat.div_le_div_right (by omega))
      have hoffset : step * ((code - first) / step) = code - first :=
        Nat.mul_div_cancel' (Nat.dvd_of_mod_eq_zero hstep)
      refine ⟨Or.inl (List.mem_range'.mpr ⟨_, hcount, ?_⟩), Or.inl (List.mem_range'.mpr ⟨_, hcount, ?_⟩)⟩
      · dsimp only
        omega
      · dsimp only
        omega
    next => exact ⟨Or.inr (ih h).1, Or.inr (ih h).2⟩

/-! ## Upper forms -/

theorem toUpper_eq_self {c : Char} (h : c.toNat ∉ List.range' 0x61 26) : c.toUpper = c := by
  have hlower : ¬ (c.val ≥ 'a'.val ∧ c.val ≤ 'z'.val) := by
    intro hin
    apply h
    rw [List.mem_range'_1]
    have hfirst : 0x61 ≤ c.toNat := hin.1
    have hlast : c.toNat ≤ 0x7a := hin.2
    omega
  exact dif_neg hlower

theorem upperForm_of_notMem {c : Char} (h : c.toNat ∉ upperDomain) : upperForm c = [c] := by
  simp only [upperDomain, List.mem_append, not_or] at h
  obtain ⟨⟨hascii, hexpansion⟩, hrun⟩ := h
  have hlookup : upperExpansions.lookup c.toNat = none := by
    rw [List.lookup_eq_none_iff]
    intro e he
    exact bne_iff_ne.mpr fun heq => hexpansion (List.mem_map.mpr ⟨e, he, heq.symm⟩)
  have hform : runForm? c.toNat upperRuns = none := by
    cases hfound : runForm? c.toNat upperRuns with
    | none => rfl
    | some form => exact absurd (mem_of_runForm hfound).1 hrun
  unfold upperForm
  rw [hlookup, hform, toUpper_eq_self hascii]
  exact ite_self [c]

/-- A code point of an upper form is a character that stays as it is. -/
theorem upperForm_ofNat {n : Nat} (h : n ∈ upperImages) : upperForm (Char.ofNat n) = [Char.ofNat n] := by
  by_cases hvalid : n.isValidChar
  · have hcode : (Char.ofNat n).toNat = n := by
      rw [Char.ofNat, dif_pos hvalid]
      rfl
    apply upperForm_of_notMem
    rw [hcode]
    exact notMem_upperDomain h
  · have hzero : Char.ofNat n = '\x00' := by
      rw [Char.ofNat, dif_neg hvalid]
      rfl
    rw [hzero]
    rfl

theorem upperForm_of_mem {c d : Char} (h : d ∈ upperForm c) : upperForm d = [d] := by
  unfold upperForm at h
  split at h
  next hascii =>
    obtain rfl := List.mem_singleton.mp h
    have himage : c.toUpper.toNat ∈ upperImages := by
      refine List.mem_append_left _ (List.mem_append_left _ (List.mem_map.mpr ⟨c.toNat, ?_, ?_⟩))
      · exact List.mem_range.mpr hascii
      · rw [Char.ofNat_toNat]
    rw [← Char.ofNat_toNat c.toUpper]
    exact upperForm_ofNat himage
  next hascii =>
    split at h
    next codes hcodes =>
      obtain ⟨n, hn, rfl⟩ := List.mem_map.mp h
      obtain ⟨front, back, htable, -⟩ := List.lookup_eq_some_iff.mp hcodes
      have hentry : (c.toNat, codes) ∈ upperExpansions := by
        rw [htable]
        exact List.mem_append_right _ List.mem_cons_self
      exact upperForm_ofNat (List.mem_append_left _
        (List.mem_append_right _ (List.mem_flatMap.mpr ⟨_, hentry, hn⟩)))
    next hlookup =>
      split at h
      next form hform =>
        obtain rfl := List.mem_singleton.mp h
        exact upperForm_ofNat (List.mem_append_right _ (mem_of_runForm hform).2)
      next hform =>
        obtain rfl := List.mem_singleton.mp h
        rw [upperForm, if_neg hascii, hlookup, hform]

namespace Text

/-- A text in upper case is in upper case. -/
theorem upper_upper (s : String) : upper (upper s) = upper s := by
  have hforms (cs : List Char) : (cs.flatMap upperForm).flatMap upperForm = cs.flatMap upperForm := by
    rw [List.flatMap_assoc]
    refine List.flatMap_congr fun c _ => ?_
    rw [List.flatMap_congr fun d hd => upperForm_of_mem hd, List.flatMap_singleton']
  rw [upper, upper, String.toList_ofList, hforms]

end Text

end FaultDesk
