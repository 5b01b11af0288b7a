import Mathlib.Data.List.Forall2

/-!
Steps that can fail. A chain of them gives a result only when every step of it does.
-/

namespace FaultDesk

theorem mapM_eq_ok_iff {α β ε : Type} {f : α → Except ε β} {l : List α} {bs : List β} :
    l.mapM f = .ok bs ↔ List.Forall₂ (fun a b => f a = .ok b) l bs := by
  induction l generalizing bs with
  | nil =>
    rw [List.mapM_nil, List.forall₂_nil_left_iff]
    exact ⟨fun h => (Except.ok.inj h).symm, fun h => h ▸ rfl⟩
  | cons a l ih =>
    rw [List.mapM_cons, List.forall₂_cons_left_iff]
    constructor
    · intro h
      obtain ⟨b, ha⟩ : ∃ b, f a = .ok b := by
        cases ha : f a with
        | error e => rw [ha] at h; cases h
        | ok b => exact ⟨b, rfl⟩
      obtain ⟨rest, hrest⟩ : ∃ rest, l.mapM f = .ok rest := by
        cases hl : l.mapM f with
        | error e => rw [ha, hl] at h; cases h
        | ok rest => exact ⟨rest, rfl⟩
      rw [ha, hrest] at h
      exact ⟨b, rest, ha, ih.mp hrest, (Except.ok.inj h).symm⟩
    · rintro ⟨b, rest, ha, hrest, rfl⟩
      rw [ha, ih.mpr hrest]
      rfl

theorem exists_of_mem_mapM {α β ε : Type} {f : α → Except ε β} {l : List α} {bs : List β}
    (h : l.mapM f = .ok bs) {b : β} (hb : b ∈ bs) : ∃ a ∈ l, f a = .ok b := by
  have hall := mapM_eq_ok_iff.mp h
  clear h
  induction hall with
  | nil => simp at hb
  | cons ha _ ih =>
    rcases List.mem_cons.mp hb with rfl | hrest
    · exact ⟨_, List.mem_cons_self, ha⟩
    · obtain ⟨a, hmem, ha'⟩ := ih hrest
      exact ⟨a, List.mem_cons_of_mem _ hmem, ha'⟩

theorem exists_mem_of_mapM {α β ε : Type} {f : α → Except ε β} {l : List α} {bs : List β}
    (h : l.mapM f = .ok bs) {a : α} (ha : a ∈ l) : ∃ b ∈ bs, f a = .ok b := by
  have hall := mapM_eq_ok_iff.mp h
  clear h
  induction hall with
  | nil => cases ha
  | cons hb _ ih =>
    rcases List.mem_cons.mp ha with rfl | hrest
    · exact ⟨_, List.mem_cons_self, hb⟩
    · obtain ⟨b, hmem, hb'⟩ := ih hrest
      exact ⟨b, List.mem_cons_of_mem _ hmem, hb'⟩

theorem bind_eq_ok_iff {α β ε : Type} {x : Except ε α} {f : α → Except ε β} {b : β} :
    x >>= f = .ok b ↔ ∃ a, x = .ok a ∧ f a = .ok b := by
  cases x with
  | error e =>
    constructor
    · intro h
      cases h
    · rintro ⟨a, ha, -⟩
      cases ha
  | ok a =>
    constructor
    · intro h
      exact ⟨a, rfl, h⟩
    · rintro ⟨a', ha, h⟩
      cases ha
      exact h

end FaultDesk
