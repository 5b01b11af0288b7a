import Mathlib.Data.List.Nodup
import FaultDesk.Proofs.Register.Numbers
import FaultDesk.Proofs.Register.OpenComplaints

/-!
The number of the next complaint. It is that of the value behind the greatest in use where the
numbers in use are regular, and may be another one where they are not. A register that starts empty
gives out its numbers one after the other, however many of its entries fail.
-/

namespace FaultDesk

namespace Register

variable {n : Numbering} {r : Register} {v : Nat}

/-! ## The next number -/

theorem nextNumber_eq {first : Int} (hn : Numbering.ofSettings r = .ok n)
    (hfirst : n.firstValue r.numbers = .ok first) :
    r.nextNumber = n.freeFrom r.numbers Numbering.attempts first := by
  simp only [nextNumber, hn, hfirst]

/-- Among regular numbers the next one is that of the value that is due, unless a number is too long
to be read or written. -/
theorem nextNumber_of_regular (hn : Numbering.ofSettings r = .ok n) (hstart : 0 ≤ n.start)
    (hregular : n.Regular r.numbers) :
    r.nextNumber = .ok (n.label (n.due r.numbers)) ∨ ∃ e, r.nextNumber = .error (.failed e) := by
  rcases hregular.firstValue_cases hstart with hfirst | ⟨ds, e, -, -, hfirst⟩
  · rw [nextNumber_eq hn hfirst]
    exact Numbering.freeFrom_of_free (n.label_due_not_mem r.numbers)
  · exact Or.inr ⟨e, by simp only [nextNumber, hn, hfirst]⟩

theorem nextNumber_of_regular_short (hn : Numbering.ofSettings r = .ok n) (hstart : 0 ≤ n.start)
    (hregular : n.Regular r.numbers)
    (hread : ∀ ds, n.head ++ String.ofList ds ∈ r.numbers → ds.length ≤ Whole.digitLimit)
    (hfit : (Whole.figures n.width (n.due r.numbers)).length ≤ Whole.digitLimit) :
    r.nextNumber = .ok (n.label (n.due r.numbers)) := by
  rcases hregular.firstValue_cases hstart with hfirst | ⟨ds, e, hds, hlong, -⟩
  · rw [nextNumber_eq hn hfirst]
    exact Numbering.freeFrom_of_not_mem (Numbering.number_of_length hfit)
      (n.label_due_not_mem r.numbers)
  · exact absurd (hread ds hds) (Nat.not_le.mpr hlong)

/-- What the search for a number comes to, from the value it begins with. It finds the number of the
value behind the greatest in use exactly where it does not begin behind that value and all numbers in
between are taken, at most nineteen; what it finds is free; and it gives up where twenty are taken.
Regular numbers let it begin with that value. -/
theorem nextNumber_is_due_iff (hn : Numbering.ofSettings r = .ok n) (hstart : 0 ≤ n.start)
    (hfirst : n.firstValue r.numbers = .ok v)
    (hfit : (Whole.figures n.width (v + Numbering.attempts)).length ≤ Whole.digitLimit) :
    (r.nextNumber = .ok (n.label (n.due r.numbers)) ↔
      v ≤ n.due r.numbers ∧ n.due r.numbers < v + Numbering.attempts ∧
        ∀ w, v ≤ w → w < n.due r.numbers → n.label w ∈ r.numbers) ∧
    (∀ s, r.nextNumber = .ok s → s ∉ r.numbers) ∧
    (r.nextNumber = .error .noneFree ↔
      ∀ w, v ≤ w → w < v + Numbering.attempts → n.label w ∈ r.numbers) ∧
    (n.Regular r.numbers → v = n.due r.numbers) := by
  have hsearch := fun s => @Numbering.freeFrom_eq_ok_iff n r.numbers s v Numbering.attempts hfit
  rw [nextNumber_eq hn hfirst]
  refine ⟨?_, ?_, Numbering.freeFrom_eq_noneFree_iff hfit, ?_⟩
  · rw [hsearch]
    constructor
    · rintro ⟨w, hle, hlt, heq, -, hbelow⟩
      rw [Numbering.label_injective heq]
      exact ⟨hle, hlt, hbelow⟩
    · rintro ⟨hle, hlt, hbelow⟩
      exact ⟨_, hle, hlt, rfl, n.label_due_not_mem r.numbers, hbelow⟩
  · intro s hs
    obtain ⟨w, -, -, -, hfree, -⟩ := (hsearch s).mp hs
    exact hfree
  · intro hregular
    rcases hregular.firstValue_cases hstart with hdue | ⟨ds, e, -, -, herror⟩
    · rw [hfirst] at hdue
      exact Int.ofNat.inj (Except.ok.inj hdue)
    · rw [hfirst] at herror
      cases herror

/-- A complaint with nothing but its number. -/
def bareComplaint (id : Nat) (number : String) : ComplaintRow := ⟨id, number, "OPEN", none, []⟩

/-- A register with complaints of these numbers. -/
def ofNumbers (numbers : List String) : Register :=
  { empty with complaints := numbers.zipIdx.map fun (number, i) => bareComplaint (i + 1) number }

/-- The numbering of a register without settings. -/
def standardNumbering : Numbering := ⟨"KSC", 1, 4⟩

theorem firstValue_of_ordered {numbers : List String} {ds : List Char}
    (hlike : ∀ s ∈ numbers, Text.startsLike "KSC" s = true)
    (hordered : numbers.Pairwise fun s t => Numbering.before s t = true)
    (hhead : numbers.head? = some ("KSC" ++ String.ofList ds)) (hds : AreDigits ds)
    (hlength : ds.length ≤ Whole.digitLimit) :
    standardNumbering.firstValue numbers = .ok (Numeral.valueOf ds + 1 : Nat) := by
  have hlongest : (standardNumbering.longest numbers).head? = some ("KSC" ++ String.ofList ds) := by
    rw [Numbering.longest_of_ordered hlike hordered, List.head?_take]
    exact hhead
  rw [Numbering.firstValue_of_head? hds hlongest, if_neg (Nat.not_lt.mpr hlength)]
  rfl

theorem nextNumber_behind_wider :
    (ofNumbers ["KSC10000", "KSC9999"]).nextNumber = .ok "KSC10001" := by
  have hfirst : standardNumbering.firstValue (ofNumbers ["KSC10000", "KSC9999"]).numbers =
      .ok (10001 : Nat) :=
    @firstValue_of_ordered _ "10000".toList (by decide) (by decide) rfl (by decide) (by decide)
  have hdue : standardNumbering.due (ofNumbers ["KSC10000", "KSC9999"]).numbers = 10001 := by
    decide +kernel
  have hlaw := (nextNumber_is_due_iff (r := ofNumbers ["KSC10000", "KSC9999"])
    (n := standardNumbering) rfl (by decide)
    hfirst (by decide +kernel)).1
  rw [hdue] at hlaw
  exact hlaw.mpr ⟨by omega, by decide, fun w hw hlt => by omega⟩

/-- A number with more zeros hides a greater one. -/
theorem longer_number_hides_greater :
    (ofNumbers ["KSC000005", "KSC0100"]).nextNumber = .ok "KSC0006" ∧
      standardNumbering.label
        (standardNumbering.due (ofNumbers ["KSC000005", "KSC0100"]).numbers) = "KSC0101" := by
  have hfirst : standardNumbering.firstValue (ofNumbers ["KSC000005", "KSC0100"]).numbers =
      .ok (6 : Nat) :=
    @firstValue_of_ordered _ "000005".toList (by decide) (by decide) rfl (by decide)
      (by decide)
  refine ⟨?_, by decide +kernel⟩
  rw [nextNumber_eq (n := standardNumbering) rfl hfirst]
  exact Numbering.freeFrom_of_not_mem (Numbering.number_of_length (by decide +kernel))
    (by decide +kernel)

/-! ## Numbers given out one after the other -/

/-- The registers that entries lead to under one numbering, from one without complaints, and the
numbers that have been given out. An entry may fail at any point, or be taken back, which leaves the
register as it was; and whatever touches neither the numbers nor the numbering may happen in
between. -/
inductive Numbered (n : Numbering) : Register → List String → Prop
  | empty {r : Register} : Numbering.ofSettings r = .ok n → r.complaints = [] → Numbered n r []
  | entered {r : Register} {given : List String} {number : String} (k : Clerk) (now : Instant)
      (c : Candidate) : Numbered n r given → (r.enter k now c).1 = .ok number →
      Numbered n (r.enter k now c).2 (given ++ [number])
  | failed {r : Register} {given : List String} {f : EntryFault} (k : Clerk) (now : Instant)
      (c : Candidate) : Numbered n r given → (r.enter k now c).1 = .error f →
      Numbered n (r.enter k now c).2 given
  | elsewhere {r r' : Register} {given : List String} : Numbered n r given →
      Numbering.ofSettings r' = .ok n → r'.numbers = r.numbers → Numbered n r' given

variable {k : Clerk} {now : Instant} {c : Candidate} {given : List String}

theorem entryOf_number {d : Draft} {e : Entry} (h : r.entryOf k now c d = .ok e) :
    r.nextNumber = .ok e.complaint.number := by
  unfold entryOf at h
  simp only [bind, Except.bind, pure, Except.pure] at h
  repeat' split at h
  all_goals simp at h
  subst e
  assumption

theorem ofFailure_ne_noNumber (c : Candidate) (f : Failure) :
    EntryFault.ofFailure c f ≠ .noNumber := by
  unfold EntryFault.ofFailure
  split <;> simp

/-- Only where the search for a number gives up is a number missing. -/
theorem entryOf_noNumber {d : Draft} (h : r.entryOf k now c d = .error .noNumber) :
    r.nextNumber = .error .noneFree := by
  have hguarded {α : Type} {x : Except Failure α} {e : EntryFault}
      (hx : x.mapError (EntryFault.ofFailure c) = .error e) : e ≠ .noNumber := by
    cases x with
    | error f =>
      cases hx
      exact ofFailure_ne_noNumber c f
    | ok a => cases hx
  unfold entryOf at h
  simp only [bind, Except.bind, pure, Except.pure] at h
  split at h
  next e he => exact absurd (Except.error.inj h) (hguarded he)
  next =>
    split at h
    next =>
      split at h
      next e he => exact absurd (Except.error.inj h) (hguarded he)
      next =>
        split at h
        next e he => exact absurd (Except.error.inj h) (hguarded he)
        next => cases h
    next hnext => exact hnext
    next f _ => exact absurd (Except.error.inj h) (ofFailure_ne_noNumber c f)

theorem enter_noNumber (h : (r.enter k now c).1 = .error .noNumber) :
    r.nextNumber = .error .noneFree := by
  unfold enter at h
  split at h
  next => cases h
  next d _ =>
    split at h
    next => cases h
    next =>
      split at h
      next e he => exact entryOf_noNumber (he.trans (congrArg _ (Except.error.inj h)))
      next => cases h

theorem enter_number {s : String} (h : (r.enter k now c).1 = .ok s) :
    r.nextNumber = .ok s ∧ (r.enter k now c).2.numbers = r.numbers ++ [s] := by
  rcases r.enter_cases k now c with ⟨f, hsame⟩ | ⟨d, e, he, hadded⟩
  · rw [hsame] at h
    cases h
  · rw [hadded] at h ⊢
    cases h
    exact ⟨entryOf_number he, by simp [numbers, add]⟩

/-- The first so many numbers. -/
def firstNumbers (n : Numbering) (count : Nat) : List String :=
  (List.range' n.start.toNat count).map n.label

theorem firstNumbers_succ (n : Numbering) (count : Nat) :
    firstNumbers n (count + 1) = firstNumbers n count ++ [n.label (n.start.toNat + count)] := by
  simp [firstNumbers, List.range'_1_concat]

theorem mem_firstNumbers {count : Nat} {s : String} : s ∈ firstNumbers n count ↔
    ∃ w, n.start.toNat ≤ w ∧ w < n.start.toNat + count ∧ s = n.label w := by
  simp only [firstNumbers, List.mem_map, List.mem_range'_1, and_assoc, eq_comm (a := s)]

theorem nodup_firstNumbers (n : Numbering) (count : Nat) : (firstNumbers n count).Nodup := by
  refine List.Nodup.map ?_ List.nodup_range'
  intro v w
  exact Numbering.label_injective

theorem regular_firstNumbers (n : Numbering) (count : Nat) : n.Regular (firstNumbers n count) := by
  refine Numbering.regular_of_labels ?_
  intro s hs
  obtain ⟨w, -, -, hw⟩ := mem_firstNumbers.mp hs
  exact ⟨w, hw⟩

theorem due_firstNumbers (n : Numbering) (count : Nat) :
    n.due (firstNumbers n count) = n.start.toNat + count := by
  have hvalues : (firstNumbers n count).filterMap n.valueOf? = List.range' n.start.toNat count := by
    have hvalue : n.valueOf? ∘ n.label = some := funext (Numbering.valueOf?_label n)
    rw [firstNumbers, List.filterMap_map, hvalue, List.filterMap_some]
  rw [Numbering.due, hvalues]
  cases count with
  | zero => rfl
  | succ count =>
    have hmax : (List.range' n.start.toNat (count + 1)).max? = some (n.start.toNat + count) := by
      refine List.max?_eq_some_iff.mpr ⟨List.mem_range'_1.mpr (by omega), ?_⟩
      intro w hw
      have hw' := List.mem_range'_1.mp hw
      omega
    rw [hmax]
    rfl

/-- With the first so many numbers in use the next one follows them, or none can be written. -/
theorem nextNumber_of_firstNumbers {count : Nat} (hn : Numbering.ofSettings r = .ok n)
    (hstart : 0 ≤ n.start) (h : r.numbers = firstNumbers n count) :
    r.nextNumber = .ok (n.label (n.start.toNat + count)) ∨
      ∃ e, r.nextNumber = .error (.failed e) := by
  have hnext := nextNumber_of_regular hn hstart (h ▸ regular_firstNumbers n count)
  rwa [h, due_firstNumbers] at hnext

theorem nextNumber_of_firstNumbers_short {count : Nat} (hn : Numbering.ofSettings r = .ok n)
    (hstart : 0 ≤ n.start) (h : r.numbers = firstNumbers n count)
    (hfit : (Whole.figures n.width (n.start.toNat + count)).length ≤ Whole.digitLimit) :
    r.nextNumber = .ok (n.label (n.start.toNat + count)) := by
  have hread : ∀ ds, n.head ++ String.ofList ds ∈ r.numbers → ds.length ≤ Whole.digitLimit := by
    intro ds hds
    rw [h] at hds
    obtain ⟨w, -, hlt, heq⟩ := mem_firstNumbers.mp hds
    have hfigures : ds = Whole.figures n.width w := by
      simpa [Numbering.label, ← String.toList_inj] using heq
    rw [hfigures]
    exact (Whole.length_figures_mono n.width (Nat.le_of_lt hlt)).trans hfit
  have hnext := nextNumber_of_regular_short hn hstart (h ▸ regular_firstNumbers n count) hread
  rw [h, due_firstNumbers] at hnext
  exact hnext hfit

theorem ofSettings_enter (r : Register) (k : Clerk) (now : Instant) (c : Candidate) :
    Numbering.ofSettings (r.enter k now c).2 = Numbering.ofSettings r := by
  rcases r.enter_cases k now c with ⟨f, hsame⟩ | ⟨d, e, -, hadded⟩
  · rw [hsame]
  · rw [hadded]
    rfl

/-- The numbers in use are those that have been given out, and these are the first ones. -/
theorem numbered_firstNumbers (hstart : 0 ≤ n.start) (h : Numbered n r given) :
    Numbering.ofSettings r = .ok n ∧ r.numbers = given ∧ given = firstNumbers n given.length := by
  induction h with
  | empty hn hnone => exact ⟨hn, by simp [numbers, hnone], rfl⟩
  | @entered r given number k now c _ hnumber ih =>
    obtain ⟨hn, hgiven, hfirst⟩ := ih
    obtain ⟨hnext, hnumbers⟩ := enter_number hnumber
    refine ⟨(ofSettings_enter r k now c).trans hn, by rw [hnumbers, hgiven], ?_⟩
    rcases nextNumber_of_firstNumbers hn hstart (hgiven.trans hfirst) with hok | ⟨e, herror⟩
    · rw [hok] at hnext
      rw [List.length_append, List.length_singleton, firstNumbers_succ, ← hfirst,
        Except.ok.inj hnext]
    · rw [herror] at hnext
      cases hnext
  | @failed r given f k now c _ hfailed ih =>
    obtain ⟨hn, hgiven, hfirst⟩ := ih
    rcases r.enter_cases k now c with ⟨f, hsame⟩ | ⟨d, e, -, hadded⟩
    · rw [hsame]
      exact ⟨hn, hgiven, hfirst⟩
    · rw [hadded] at hfailed
      cases hfailed
  | elsewhere _ hn hnumbers ih => exact ⟨hn, hnumbers.trans ih.2.1, ih.2.2⟩

/-- The numbers of a register that starts empty are given out one after the other, each once, and
the search for the next one never gives up: it finds the number that follows, whatever the width it
takes, as long as that can be written. -/
theorem numbers_given_in_turn (hstart : 0 ≤ n.start) (h : Numbered n r given) :
    r.numbers = given ∧ given = firstNumbers n given.length ∧ given.Nodup ∧
      (∀ k now c, (r.enter k now c).1 ≠ .error .noNumber) ∧
      (∀ k now c s, (r.enter k now c).1 = .ok s → s = n.label (n.start.toNat + given.length)) ∧
      ((Whole.figures n.width (n.start.toNat + given.length)).length ≤ Whole.digitLimit →
        r.nextNumber = .ok (n.label (n.start.toNat + given.length))) := by
  obtain ⟨hn, hgiven, hfirst⟩ := numbered_firstNumbers hstart h
  have hnext := nextNumber_of_firstNumbers hn hstart (hgiven.trans hfirst)
  refine ⟨hgiven, hfirst, ?_, ?_, ?_, nextNumber_of_firstNumbers_short hn hstart
    (hgiven.trans hfirst)⟩
  · rw [hfirst]
    exact nodup_firstNumbers n _
  · intro k now c hgivesUp
    have hnone := enter_noNumber hgivesUp
    rcases hnext with hok | ⟨e, herror⟩
    · rw [hok] at hnone
      cases hnone
    · rw [herror] at hnone
      cases hnone
  · intro k now c s hs
    obtain ⟨hs', -⟩ := enter_number hs
    rcases hnext with hok | ⟨e, herror⟩
    · rw [hok] at hs'
      exact (Except.ok.inj hs').symm
    · rw [herror] at hs'
      cases hs'

/-- A register that starts with the last number of the standard width. -/
def lateRegister : Register :=
  { empty with settings := [⟨Numbering.startKey, some "9999", none, true⟩] }

def lateClerk : Clerk := ⟨.standard, "client", none⟩

def lateFault : Candidate := ⟨"101", "Tag8", .int 0, 0, .simple default, none, .digital⟩

theorem numbers_given_past_width :
    (lateRegister.enter lateClerk 0 lateFault).2.numbers = ["KSC9999"] ∧
      (lateRegister.enter lateClerk 0 lateFault).2.nextNumber = .ok "KSC10000" := by
  have hstart : Numbering.ofSettings lateRegister = .ok ⟨"KSC", 9999, 4⟩ := by decide +kernel
  have hentered : (lateRegister.enter lateClerk 0 lateFault).1 = .ok "KSC9999" := by
    decide +kernel
  have hnumbered : Numbered ⟨"KSC", 9999, 4⟩ (lateRegister.enter lateClerk 0 lateFault).2
      ["KSC9999"] :=
    .entered lateClerk 0 lateFault (.empty hstart rfl) hentered
  obtain ⟨hnumbers, -, -, -, -, hnext⟩ := numbers_given_in_turn (by decide) hnumbered
  exact ⟨hnumbers, hnext (by decide +kernel)⟩

end Register

end FaultDesk
