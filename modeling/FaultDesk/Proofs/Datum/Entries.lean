import Mathlib.Data.List.Nodup
import Mathlib.Tactic.Common
import FaultDesk.Datum.Plain

/-!
Entries under keys. Where the keys are different, what is found is what is there; under text keys, what is
found in entries that are put together, filtered or added one by one.
-/

namespace FaultDesk

/-- Of entries with different keys, each is found under its own. -/
theorem lookup_eq_some_iff_of_nodup {α β : Type} [BEq α] [LawfulBEq α] {l : List (α × β)} {key : α} {v : β}
    (hkeys : (l.map (·.1)).Nodup) : l.lookup key = some v ↔ (key, v) ∈ l := by
  constructor
  · intro h
    obtain ⟨front, back, rfl, -⟩ := List.lookup_eq_some_iff.mp h
    exact List.mem_append_right _ List.mem_cons_self
  · intro h
    obtain ⟨front, back, rfl⟩ := List.append_of_mem h
    refine List.lookup_eq_some_iff.mpr ⟨front, back, rfl, fun e he => ?_⟩
    rw [List.map_append] at hkeys
    have hapart := List.disjoint_of_nodup_append hkeys (List.mem_map_of_mem he)
    refine bne_iff_ne.mpr fun heq => hapart ?_
    rw [← heq]
    exact List.mem_cons_self

namespace Datum

/-- The entries of a mapping with text keys. -/
def entriesOf (fields : List (String × Datum)) : List (Datum × Datum) :=
  fields.map fun (k, v) => (.text k, v)

theorem object_eq (fields : List (String × Datum)) : object fields = .mapping (entriesOf fields) := rfl

@[simp]
theorem lookup_nil (key : String) : lookup key (entriesOf []) = none := rfl

@[simp]
theorem lookup_cons (key name : String) (v : Datum) (rest : List (String × Datum)) :
    lookup key (entriesOf ((name, v) :: rest)) =
      if name = key then some v else lookup key (entriesOf rest) := rfl

theorem entriesOf_injective : Function.Injective entriesOf := by
  refine List.map_injective_iff.mpr ?_
  rintro ⟨k, v⟩ ⟨k', v'⟩ h
  cases h
  rfl

theorem lookup_entriesOf (key : String) (fields : List (String × Datum)) :
    lookup key (entriesOf fields) = fields.lookup key := by
  induction fields with
  | nil => rfl
  | cons e rest ih =>
    obtain ⟨name, v⟩ := e
    rw [lookup_cons, ih, List.lookup_cons]
    by_cases h : name = key
    · simp [h]
    · rw [if_neg h, beq_eq_false_iff_ne.mpr (Ne.symm h)]

@[simp]
theorem entriesOf_append (front back : List (String × Datum)) :
    entriesOf (front ++ back) = entriesOf front ++ entriesOf back := List.map_append

@[simp]
theorem lookup_append (key : String) (front back : List (Datum × Datum)) :
    lookup key (front ++ back) = (lookup key front).or (lookup key back) := by
  induction front with
  | nil => rfl
  | cons e rest ih =>
    obtain ⟨name, v⟩ := e
    cases name with
    | text k =>
      change (if k = key then some v else lookup key (rest ++ back)) =
        Option.or (if k = key then some v else lookup key rest) _
      rw [ih]
      split <;> rfl
    | _ => exact ih

theorem lookup_eq_none {key : String} {fields : List (String × Datum)}
    (h : key ∉ fields.map (·.1)) : lookup key (entriesOf fields) = none := by
  induction fields with
  | nil => rfl
  | cons e rest ih =>
    obtain ⟨name, v⟩ := e
    simp only [List.map_cons, List.mem_cons, not_or] at h
    rw [lookup_cons, if_neg fun he => h.1 he.symm, ih h.2]

theorem lookup_filter (keep : String → Bool) (key : String) (fields : List (String × Datum)) :
    lookup key (entriesOf (fields.filter fun f => keep f.1)) =
      if keep key then lookup key (entriesOf fields) else none := by
  induction fields with
  | nil => exact (ite_self none).symm
  | cons e rest ih =>
    obtain ⟨name, v⟩ := e
    by_cases hname : name = key
    · subst hname
      by_cases hkeep : keep name <;> simp [hkeep, ih]
    · by_cases hkeep : keep name <;> simp [hkeep, ih, hname]

theorem withEntry_eq_append {es : List (Datum × Datum)} {key : String} (h : lookup key es = none)
    (v : Datum) : withEntry es key v = es ++ [(.text key, v)] := by
  induction es with
  | nil => rfl
  | cons e rest ih =>
    obtain ⟨name, w⟩ := e
    cases name with
    | text k =>
      have hne : k ≠ key := by
        rintro rfl
        change (if k = k then some w else _) = none at h
        rw [if_pos rfl] at h
        cases h
      change (if k = key then some w else lookup key rest) = none at h
      rw [if_neg hne] at h
      change (if k = key then _ else (Datum.text k, w) :: withEntry rest key v) = _
      rw [if_neg hne, ih h, List.cons_append]
    | _ => exact congrArg (_ :: ·) (ih h)

theorem lookup_concat_eq_none {es : List (Datum × Datum)} {key name : String} {v : Datum}
    (h : lookup key es = none) (hne : key ≠ name) : lookup key (es ++ [(.text name, v)]) = none := by
  rw [lookup_append, h]
  exact if_neg hne.symm

/-- Entries that are added one by one stand behind those that are there, when their keys are new. -/
theorem foldl_withEntry {fields : List (String × Datum)} {done : List (Datum × Datum)}
    (hkeys : (fields.map (·.1)).Nodup) (hnew : ∀ k ∈ fields.map (·.1), lookup k done = none) :
    fields.foldl (fun done (k, v) => withEntry done k v) done = done ++ entriesOf fields := by
  induction fields generalizing done with
  | nil => exact (List.append_nil done).symm
  | cons e rest ih =>
    obtain ⟨name, v⟩ := e
    obtain ⟨hname, hrest⟩ := List.nodup_cons.mp hkeys
    rw [List.foldl_cons]
    dsimp only
    rw [withEntry_eq_append (hnew name List.mem_cons_self) v, ih hrest, List.append_assoc]
    · rfl
    · intro k hk
      have hne : k ≠ name := by
        rintro rfl
        exact hname hk
      exact lookup_concat_eq_none (hnew k (List.mem_cons_of_mem name hk)) hne

end Datum

end FaultDesk
